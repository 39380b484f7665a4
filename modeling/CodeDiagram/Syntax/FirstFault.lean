/-
# The first fault of a tree

A grammar always answers with a tree and marks what it had to supply or skip.  The reader is told
of the first such mark in document order.  Only branches that are marked are searched: by recursion
(`firstFault?`), or in turns with a pile of the branches that wait (`firstFaultInTurns?`).  Both
find the same: see `Proofs/Syntax/Faults.lean`.
-/
import CodeDiagram.Syntax.Document
import CodeDiagram.Text.Lines

namespace CodeDiagram.Syntax

/-- The most characters of the reader's text that an error quotes. -/
def snippetLength : Nat := 24

/-- What an error quotes of the skipped text: the start of its first line that is not blank. -/
def snippet (skipped : String) : String :=
  let inked := ((Text.lines skipped.toList).map Text.trim).find? (!·.isEmpty)
  String.ofList ((inked.getD []).take snippetLength)

/-- The fault of a skipped part of the text. -/
def skippedFault (text : String) (info : Info) : SyntaxFault :=
  let quoted := ((Text.slice text info.start info.stop).map snippet).getD ""
  if quoted.isEmpty then .unreadable else .near quoted

/-- The line a tree starts on, counted from one. -/
def lineIn (text : String) (info : Info) : Nat := Text.breaksBefore text info.start + 1

/-- Whether the search looks into a tree. -/
def Tree.isMarked (t : Tree) : Bool := t.info.hasFault || t.info.missing

mutual

/-- The first fault at or below a tree that is marked. -/
def firstFault? (text : String) : Tree → Option SyntaxError
  | .node info children =>
    if info.missing then some ⟨lineIn text info, .missing info.kind⟩
    else if info.erroneous then some ⟨lineIn text info, skippedFault text info⟩
    else firstFaultAmong? text children

/-- The first fault of a list of trees, in those that are marked. -/
def firstFaultAmong? (text : String) : List Tree → Option SyntaxError
  | [] => none
  | t :: ts =>
    if t.isMarked then
      match firstFault? text t with
      | some e => some e
      | none => firstFaultAmong? text ts
    else firstFaultAmong? text ts

end

/-- The first fault in a pile of trees, from the top on.  Of a tree that is no fault itself the
children that are marked come onto the pile, the last one first. -/
def firstFaultInTurns? (text : String) : List Tree → Option SyntaxError
  | [] => none
  | t :: waiting =>
    if t.info.missing then some ⟨lineIn text t.info, .missing t.info.kind⟩
    else if t.info.erroneous then some ⟨lineIn text t.info, skippedFault text t.info⟩
    else firstFaultInTurns? text (pile (t.children.filter (·.isMarked)).reverse waiting)
termination_by waiting => Tree.sizes waiting
decreasing_by
  have hmarked := Tree.sizes_filter_le (·.isMarked) t.children
  have hchildren := t.sizes_children_lt
  rw [pile_reverse, Tree.sizes_append, Tree.sizes]
  omega

/-- The error of a text whose tree is marked; none if the root is not. -/
def syntaxError? (text : String) (tree : Tree) : Option SyntaxError :=
  if tree.info.hasFault then
    some ((firstFault? text tree).getD ⟨lineIn text tree.info, .unreadable⟩)
  else none

/-- The tree of a text without faults. -/
def Grammar.read (grammar : Grammar) (text : String) : Except SyntaxError Tree :=
  let tree := grammar text
  match syntaxError? text tree with
  | some e => .error e
  | none => .ok tree

end CodeDiagram.Syntax
