/-
# What can be wrong with a text

A text that its grammar cannot read has a `SyntaxError`; a node that lacks what a rule asks of it
has an `ExtractionFault`.  Each is a cause, with its wording in one place.
-/

namespace CodeDiagram.Syntax

/-! ## 1. Errors of a text -/

/-- Why a text cannot be read. -/
inductive SyntaxFault where
  /-- A token of this kind had to be supplied. -/
  | missing (kind : String)
  /-- The text around here makes no sense. -/
  | near (snippet : String)
  /-- There is nothing to quote. -/
  | unreadable
deriving DecidableEq, Repr

/-- The wording of a fault. -/
def SyntaxFault.message : SyntaxFault → String
  | .missing kind => "missing `" ++ kind ++ "`"
  | .near snippet => "invalid syntax near `" ++ snippet ++ "`"
  | .unreadable => "invalid syntax"

/-- A fault and the line it is on, counted from one. -/
structure SyntaxError where
  line : Nat
  fault : SyntaxFault
deriving DecidableEq, Repr

/-- The full wording, as people see it. -/
def SyntaxError.message (e : SyntaxError) : String :=
  "Syntax error at line " ++ toString e.line ++ ": " ++ e.fault.message

/-! ## 2. Faults of a node -/

/-- Why a node gives no label or declaration; each names the grammar kind of the node. -/
inductive ExtractionFault where
  | missingField (kind field : String)
  | outOfRange (kind : String)
  | unnamed (kind : String)
deriving DecidableEq, Repr

/-- The wording of a node's fault. -/
def ExtractionFault.message : ExtractionFault → String
  | .missingField kind field => "`" ++ kind ++ "` node has no `" ++ field ++ "` field"
  | .outOfRange kind => "`" ++ kind ++ "` node text is out of range"
  | .unnamed kind => "`" ++ kind ++ "` node has no resolvable name"

end CodeDiagram.Syntax
