/-
# Writing TOML

A string is written in the plainest of four styles that can hold it.  Without escapes they are
tried in this order: between double quotes, between single quotes, between three double quotes,
between three single quotes.  Where none will do, characters are escaped between double quotes.
-/
import CodeDiagram.Number.Decimal
import CodeDiagram.Number.Natural

namespace CodeDiagram.Toml

/-! ## 1. Strings -/

/-- How a string is delimited, and so what may stand in it. -/
inductive StringStyle where
  /-- Between double quotes, with escapes. -/
  | basic
  /-- Between single quotes, character by character. -/
  | literal
  /-- Between three double quotes, over any number of lines, with escapes. -/
  | longBasic
  /-- Between three single quotes, over any number of lines, character by character. -/
  | longLiteral
deriving DecidableEq, Repr

/-- Whether a character cannot stand in any string without an escape. -/
def isControl (c : Char) : Bool :=
  (c.toNat < 0x20 && c != '\n' && c != '\t') || c.toNat == 0x7F

/-- The longest run of a quote. -/
def longestRun (quote : Char) (cs : List Char) : Nat :=
  (cs.foldl (fun (run, longest) c =>
    if c == quote then (run + 1, max longest (run + 1)) else (0, longest)) (0, 0)).2

/-- The style of a string.  Three quotes in a row would end a long string, and one a short one. -/
def StringStyle.ofText (cs : List Char) : StringStyle :=
  let multiline := cs.contains '\n'
  let backslash := cs.contains '\\'
  let doubles := longestRun '"' cs
  let singles := longestRun '\'' cs
  if cs.any isControl then if multiline then .longBasic else .basic
  else if !multiline && !backslash && doubles = 0 then .basic
  else if !multiline && singles = 0 then .literal
  else if !backslash && doubles < 3 then .longBasic
  else if singles < 3 then .longLiteral
  else if multiline then .longBasic
  else .basic

/-- The digits of hexadecimal numbers. -/
def upperHexDigit (n : Nat) : Char := "0123456789ABCDEF".toList.getD (n % 16) '0'

/-- A character other than a quote between double quotes; in a long string, line breaks stand for
themselves. -/
def escapeChar (long : Bool) (c : Char) : List Char :=
  match c with
  | '\x08' => ['\\', 'b']
  | '\t' => ['\\', 't']
  | '\n' => if long then ['\n'] else ['\\', 'n']
  | '\x0c' => ['\\', 'f']
  | '\r' => ['\\', 'r']
  | '\\' => ['\\', '\\']
  | c =>
    if isControl c then
      ['\\', 'u', '0', '0', upperHexDigit (c.toNat / 16), upperHexDigit c.toNat]
    else [c]

/-- Characters between double quotes.  Two quotes in a row may stand for themselves in a long
string, and a third is escaped; `run` is how many have been written just before. -/
def escapeFrom (long : Bool) : Nat → List Char → List Char
  | _, [] => []
  | run, c :: cs =>
    if c == '"' then
      if long && run < 2 then c :: escapeFrom long (run + 1) cs
      else '\\' :: c :: escapeFrom long 0 cs
    else escapeChar long c ++ escapeFrom long 0 cs

/-- What stands before and after a string of a style.  A line break behind the opening quotes of a
long string is not part of it, so one is written when the string has line breaks itself. -/
def StringStyle.marks (multiline : Bool) : StringStyle → String × String
  | .basic => ("\"", "\"")
  | .literal => ("'", "'")
  | .longBasic => (if multiline then "\"\"\"\n" else "\"\"\"", "\"\"\"")
  | .longLiteral => (if multiline then "'''\n" else "'''", "'''")

/-- What stands between the marks. -/
def StringStyle.body : StringStyle → List Char → List Char
  | .basic, cs => escapeFrom false 0 cs
  | .longBasic, cs => escapeFrom true 0 cs
  | .literal, cs | .longLiteral, cs => cs

/-- A string. -/
def quoted (s : String) : String :=
  let cs := s.toList
  let style := StringStyle.ofText cs
  let (opening, closing) := style.marks (cs.contains '\n')
  opening ++ String.ofList (style.body cs) ++ closing

/-! ## 2. Numbers -/

/-- Whether a decimal has no places after its point. -/
def isWhole (text : String) : Bool := text.toList.all fun c => Number.isDigit c || c == '-'

/-- A floating-point number, with a point in any case. -/
def floatText (x : Float) : String :=
  match Number.parts x with
  | .undefined negative => Number.signed negative "nan"
  | .infinite negative => Number.signed negative "inf"
  | .finite _ =>
    let text := Number.plain x
    if isWhole text then text ++ ".0" else text

/-- The bound of integers. -/
def integerBound : Nat := Nat.pow 2 63

/-- A natural number, if it has sixty-three bits. -/
def naturalText? (n : Nat) : Option String := if n < integerBound then some (toString n) else none

end CodeDiagram.Toml
