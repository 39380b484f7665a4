/-
# File endings

The ending of a path is what follows the last dot of its last part.  Parts that are empty or a
single dot do not count; a part that starts with its only dot has no ending.
-/

namespace CodeDiagram.Text

/-- The name of the file or directory that a path leads to. -/
def fileName? (path : List Char) : Option (List Char) :=
  let parts := (path.splitOn '/').filter fun p => p != [] && p != ['.']
  match parts.getLast? with
  | some name => if name = ['.', '.'] then none else some name
  | none => none

/-- The ending of a path, without its dot. -/
def extension? (path : String) : Option String := do
  let name ← fileName? path.toList
  let stem := (name.reverse.dropWhile (· != '.')).drop 1
  if stem.isEmpty then none
  else return String.ofList (name.reverse.takeWhile (· != '.')).reverse

end CodeDiagram.Text
