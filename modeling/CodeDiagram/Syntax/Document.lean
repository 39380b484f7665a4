/-
# Documents

A document is a text that was read, with its tree.  When the text only made sense inside a wrapper
that was put around it, the visible root is the body of that wrapper and lines are counted without
the wrapper's own.
-/
import CodeDiagram.Language.Basic
import CodeDiagram.Syntax.Fault
import CodeDiagram.Syntax.Tree
import CodeDiagram.Text.Slice

namespace CodeDiagram.Syntax

/-- A grammar answers every text with a tree; faults are marked in the tree. -/
abbrev Grammar := String → Tree

/-- A text and its tree. -/
structure Document where
  language : Language
  text : String
  tree : Tree
  /-- Lines of a wrapper in front of the reader's text. -/
  lineOffset : Nat := 0
  /-- The text stands inside the body of the first declaration. -/
  wrapped : Bool := false

namespace Document

/-- The root of the visible tree. -/
def root (d : Document) : Node :=
  let whole : Node := ⟨d.tree, none⟩
  if d.wrapped then
    (whole.namedChildren.head?.bind (·.field? "body")).getD whole
  else whole

/-- The line a node starts on, counted from one in the reader's own text. -/
def line (d : Document) (n : Node) : Nat :=
  max 1 (Text.breaksBefore d.text n.start + 1 - d.lineOffset)

/-- The text of a node. -/
def textOf (d : Document) (n : Node) : Except ExtractionFault String :=
  match Text.slice d.text n.start n.stop with
  | some s => .ok s
  | none => .error (.outOfRange n.kind)

/-- The text of a field of a node. -/
def fieldText (d : Document) (n : Node) (field : String) : Except ExtractionFault String :=
  match n.field? field with
  | some child => d.textOf child
  | none => .error (.missingField n.kind field)

/-- The text of a node, if it has one. -/
def textOf? (d : Document) (n : Node) : Option String := (d.textOf n).toOption

/-- The text of a field, if there is one. -/
def fieldText? (d : Document) (n : Node) (field : String) : Option String :=
  (d.fieldText n field).toOption

/-- The name a declaration gives to what it declares. -/
def declaredName (d : Document) (n : Node) : Except ExtractionFault String := d.fieldText n "name"

end Document

end CodeDiagram.Syntax
