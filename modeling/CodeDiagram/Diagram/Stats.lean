/-
# Statistics of a text

The size of a source text, and how many functions and types it declares at any depth.

The declarations are counted by recursion over the tree (`Tree.countNamed`), or in turns with a pile
of the nodes that wait (`CodeStats.countInTurns`).  Both come to the same numbers: see
`Proofs/Pipeline/Statistics.lean`.
-/
import CodeDiagram.FrontEnd.Basic

namespace CodeDiagram

open Syntax

/-- The statistics of one text. -/
structure CodeStats where
  /-- Lines that are not blank. -/
  linesOfCode : Nat
  characters : Nat
  functions : Nat := 0
  classes : Nat := 0
  /-- The wording of the error, if the text could not be read. -/
  parseError : Option String := none
deriving DecidableEq, Repr

mutual

/-- The number of named nodes at and below a tree whose grammar kind is of a class. -/
def Syntax.Tree.countNamed (p : String → Bool) : Tree → Nat
  | .node info children => (if p info.kind then 1 else 0) + countNamedAmong p children

/-- The number of named nodes of a class at and below the trees of a list. -/
def Syntax.Tree.countNamedAmong (p : String → Bool) : List Tree → Nat
  | [] => 0
  | t :: ts => (if t.info.named then t.countNamed p else 0) + countNamedAmong p ts

end

namespace CodeStats

/-- The size of a text of which no declarations are counted. -/
def size (source : String) : CodeStats :=
  let cs := source.toList
  { linesOfCode := Text.inkedLineCount cs, characters := cs.length }

/-- The statistics of a text.  One that cannot be read declares nothing. -/
def collect (fe : FrontEnd) (grammar : Grammar) (source : String) : CodeStats :=
  match fe.parse grammar source with
  | .error e => { size source with parseError := some e.message }
  | .ok d =>
    { size source with
      functions := d.root.tree.countNamed fun kind => (fe.classify kind).isFunction
      classes := d.root.tree.countNamed fun kind => (fe.classify kind).isType }

/-- Counts one node. -/
def count (stats : CodeStats) (kind : NodeKind) : CodeStats :=
  if kind.isFunction then { stats with functions := stats.functions + 1 }
  else if kind.isType then { stats with classes := stats.classes + 1 }
  else stats

/-- Counts the nodes of a pile, from the top on.  The named children of a node come onto the pile,
the first one first. -/
def countInTurns (fe : FrontEnd) (stats : CodeStats) : List Node → CodeStats
  | [] => stats
  | n :: waiting =>
    countInTurns fe (stats.count (fe.classify n.kind)) (pile n.namedChildren waiting)
termination_by waiting => Node.sizes waiting
decreasing_by
  have hless := n.sizes_namedChildren_lt
  rw [pile_eq_append, Node.sizes_append, Node.sizes_reverse, Node.sizes]
  omega

end CodeStats

end CodeDiagram
