/-
# Labels

A label is one short line.  What is too long is cut and marked with three dots.
-/
import CodeDiagram.Text.Lines

namespace CodeDiagram.Text

/-- What marks a cut. -/
def ellipsis : List Char := ['.', '.', '.']

/-- A text of more than `limit` characters cut so that, with the mark, it has that many. -/
def truncateChars (limit : Nat) (cs : List Char) : List Char :=
  if cs.length ≤ limit then cs else cs.take (limit - ellipsis.length) ++ ellipsis

/-- `truncateChars` for strings. -/
def truncate (limit : Nat) (s : String) : String := String.ofList (truncateChars limit s.toList)

/-- A text without a certain beginning, if it has it. -/
def dropHead (head cs : List Char) : List Char :=
  if head.isPrefixOf cs then cs.drop head.length else cs

/-- What an import statement imports: its first line without keyword and terminator. -/
def importPath (cs : List Char) : List Char :=
  trim (dropHead "import ".toList (trim (dropEndWhile (· == ';') (firstLine cs))))

end CodeDiagram.Text
