/-
# Recorded grammars

A grammar can be given by what it answered: the tree of a normalized text, and the tree of the other
text that a front end asks for when that one has faults.  Trees are recorded as rows in document
order: depth, grammar kind, marks, first byte, the byte after the last, and the field if there is
one.  The marks are bits of one number.
-/
import CodeDiagram.Json.Record
import CodeDiagram.Number.Natural
import CodeDiagram.Syntax.Document
import CodeDiagram.Text.Lines

namespace CodeDiagram.Syntax

open Json

/-! ## 1. Rows -/

/-- Whether a bit of the marks is set. -/
def hasMark (marks bit : Nat) : Bool := marks / Nat.pow 2 bit % 2 = 1

/-- What a row with these marks stands for. -/
def Info.ofMarks (id : Nat) (kind : String) (marks start stop : Nat) (field : Option String) :
    Info where
  id
  kind
  named := !hasMark marks 0
  missing := hasMark marks 1
  erroneous := hasMark marks 2
  hasFault := hasMark marks 3
  start
  stop
  field

/-- A recorded row. -/
structure Tree.Record where
  depth : Nat
  kind : String
  marks : Nat
  start : Nat
  stop : Nat
  field : Option String := none

/-- The row of a record, which is told apart by its number. -/
def Tree.Record.row (id : Nat) (r : Tree.Record) : Tree.Row where
  depth := r.depth
  info := .ofMarks id r.kind r.marks r.start r.stop r.field

/-- A tree from its records. -/
def Tree.ofRecords? (records : List Tree.Record) : Option Tree :=
  Tree.ofRows? (records.zipIdx.map fun (r, id) => r.row id)

def Tree.Record.ofJson? (v : Json) : Option Tree.Record := do
  let r ← v.record? 6 false
  let count (place : Nat) := r.required place "" (asNat? Number.countBound)
  return {
    depth := ← count 0
    kind := ← r.required 1 "" asString?
    marks := ← count 2
    start := ← count 3
    stop := ← count 4
    field := (r.find? 5 "").bind asString? }

/-- A tree from a list of rows. -/
def Tree.ofJson? : Json → Option Tree
  | .arr rows => do Tree.ofRecords? (← rows.mapM Tree.Record.ofJson?)
  | _ => none

/-! ## 2. Grammars -/

/-- The tree of a text of which nothing is known. -/
def Tree.unread (text : String) : Tree :=
  .node { id := 0, kind := "ERROR", erroneous := true, hasFault := true, start := 0,
          stop := text.utf8ByteSize } []

/-- The grammar that answers the normalized text of a source with the first of some trees and any
other text with the second. -/
def Grammar.recorded (source : String) (trees : List Tree) : Grammar :=
  let normal := Text.normalize source
  fun text => trees.getD (if text = normal then 0 else 1) (.unread text)

/-- The grammar of a record of trees. -/
def Grammar.ofJson (source : String) : Json → Grammar
  | .arr trees => .recorded source (trees.filterMap Tree.ofJson?)
  | _ => .recorded source []

end CodeDiagram.Syntax
