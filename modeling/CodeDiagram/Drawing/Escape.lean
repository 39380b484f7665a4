/-
# Text inside XML

The five characters that mean something in XML are written as entities.
-/

namespace CodeDiagram.Drawing

/-- A character inside XML text. -/
def escapeChar : Char → List Char
  | '&' => "&amp;".toList
  | '<' => "&lt;".toList
  | '>' => "&gt;".toList
  | '"' => "&quot;".toList
  | '\'' => "&apos;".toList
  | c => [c]

/-- A text inside XML. -/
def escape (s : String) : String := String.ofList (s.toList.flatMap escapeChar)

end CodeDiagram.Drawing
