/-
# Lines

How a text falls into lines, how its line breaks and byte order marks are made uniform, and how an
indentation that all of its lines share is taken off.

* `normalize` drops leading byte order marks and leaves `\n` as the only break.
* `lines` is the list of lines; a break at the very end opens no further line.
* `dedent` removes as many leading columns as the least indented line has.
-/
import CodeDiagram.Text.Blank

namespace CodeDiagram.Text

/-! ## 1. Uniform breaks -/

/-- The byte order mark. -/
def byteOrderMark : Char := '\uFEFF'

/-- Every pair of a carriage return and a line feed becomes a line feed. -/
def joinBreakPairs : List Char → List Char
  | '\r' :: '\n' :: rest => '\n' :: joinBreakPairs rest
  | c :: rest => c :: joinBreakPairs rest
  | [] => []

/-- A lone carriage return is a line feed. -/
def breakAtReturn (c : Char) : Char := if c = '\r' then '\n' else c

/-- The text without leading byte order marks, each of its breaks a single line feed. -/
def normalizeChars (cs : List Char) : List Char :=
  (joinBreakPairs (cs.dropWhile (· == byteOrderMark))).map breakAtReturn

/-- `normalizeChars` for strings. -/
def normalize (s : String) : String := String.ofList (normalizeChars s.toList)

/-! ## 2. Lines -/

/-- The pieces between line feeds; there is always at least one. -/
def pieces (cs : List Char) : List (List Char) := cs.splitOn '\n'

/-- A line without one carriage return at its end. -/
def dropReturn (cs : List Char) : List Char :=
  match cs.reverse with
  | '\r' :: rest => rest.reverse
  | _ => cs

/-- The lines of a text.  A line that a break ends loses a carriage return before it; what follows
the last break is a line only if it is not empty. -/
def lines (cs : List Char) : List (List Char) :=
  match (pieces cs).reverse with
  | [] => []
  | last :: ended =>
    let whole := (ended.map dropReturn).reverse
    if last.isEmpty then whole else whole ++ [last]

/-- The first line without the blanks around it; empty when there is no line. -/
def firstLine (cs : List Char) : List Char := trim ((lines cs).headD [])

/-- The number of lines that hold more than blanks. -/
def inkedLineCount (cs : List Char) : Nat := ((lines cs).filter (!isBlankText ·)).length

/-! ## 3. Shared indentation -/

/-- The characters an indentation is made of. -/
def isIndent (c : Char) : Bool := c == ' ' || c == '\t'

/-- How many spaces and tabs a line starts with. -/
def indentation (line : List Char) : Nat := (line.takeWhile isIndent).length

/-- The least indentation of the lines that are not blank; zero when all are. -/
def sharedIndentation (cs : List Char) : Nat :=
  ((((lines cs).filter (!isBlankText ·)).map indentation).min?).getD 0

/-- A line moved left by `n` columns; a blank line is emptied. -/
def shiftLeft (n : Nat) (line : List Char) : List Char :=
  if isBlankText line then [] else line.drop n

/-- The text with its shared indentation removed. -/
def dedentChars (cs : List Char) : List Char :=
  let n := sharedIndentation cs
  if n = 0 then cs else ['\n'].intercalate ((pieces cs).map (shiftLeft n))

/-- `dedentChars` for strings. -/
def dedent (s : String) : String := String.ofList (dedentChars s.toList)

end CodeDiagram.Text
