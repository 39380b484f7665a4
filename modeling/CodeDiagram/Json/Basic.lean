/-
# JSON values and their text

Values keep the order of their members.  Text is written without spaces, or over several lines with
an indentation of two.  A number that is not finite is written as `null`.
-/
import CodeDiagram.Number.Decimal

namespace CodeDiagram

/-- A JSON value. -/
inductive Json where
  | null
  | bool (b : Bool)
  | int (n : Int)
  | float (x : Float)
  | str (s : String)
  | arr (items : List Json)
  | obj (members : List (String × Json))
deriving Inhabited

namespace Json

/-! ## 1. Building and looking -/

/-- A natural number. -/
def nat (n : Nat) : Json := .int n

/-- The value of a member, the last one of that name. -/
def get? : Json → String → Option Json
  | .obj members, key => (members.reverse.find? (·.1 == key)).map (·.2)
  | _, _ => none

/-- A member that is there only if there is a value. -/
def member? (key : String) (value : Option Json) : List (String × Json) :=
  (value.map fun v => (key, v)).toList

/-! ## 2. Numbers -/

/-- A decimal as JSON writes it: positional with up to sixteen digits before the point and five
zeros after it, with an exponent beyond. -/
def decimalText (d : Number.Decimal) : String :=
  let digits := toString d.digits
  let place : Int := digits.length + d.exponent
  if 0 ≤ d.exponent && place ≤ 16 then d.positional ++ ".0"
  else if -5 < place && place ≤ 16 then d.positional
  else
    let cs := digits.toList
    let tail := String.ofList (cs.drop 1)
    String.ofList (cs.take 1) ++ (if tail.isEmpty then "" else "." ++ tail) ++ "e" ++
      toString (place - 1)

/-- The text of a floating-point number. -/
def floatText (x : Float) : String :=
  match Number.parts x with
  | .finite b =>
    Number.signed b.negative (if b.significand = 0 then "0.0" else decimalText b.shortest)
  | _ => "null"

/-! ## 3. Strings -/

/-- The digits of hexadecimal numbers. -/
def hexDigit (n : Nat) : Char := "0123456789abcdef".toList.getD (n % 16) '0'

/-- A character inside a string. -/
def escapeChar (c : Char) : List Char :=
  match c with
  | '"' => ['\\', '"']
  | '\\' => ['\\', '\\']
  | '\n' => ['\\', 'n']
  | '\r' => ['\\', 'r']
  | '\t' => ['\\', 't']
  | '\x08' => ['\\', 'b']
  | '\x0c' => ['\\', 'f']
  | c =>
    if c.toNat < 0x20 then ['\\', 'u', '0', '0', hexDigit (c.toNat / 16), hexDigit c.toNat] else [c]

/-- A string between quotes. -/
def quoted (s : String) : String :=
  String.ofList ('"' :: s.toList.flatMap escapeChar ++ ['"'])

/-! ## 4. Text -/

/-- The text of a value that holds no other. -/
def scalarText : Json → String
  | .null => "null"
  | .bool true => "true"
  | .bool false => "false"
  | .int n => toString n
  | .float x => floatText x
  | .str s => quoted s
  | .arr _ => "[]"
  | .obj _ => "\x7b\x7d"

mutual

/-- Text without spaces. -/
def compact : Json → String
  | .arr items => "[" ++ String.intercalate "," (compactItems items) ++ "]"
  | .obj members => "\x7b" ++ String.intercalate "," (compactMembers members) ++ "\x7d"
  | v => v.scalarText

/-- The texts of some values. -/
def compactItems : List Json → List String
  | [] => []
  | v :: vs => v.compact :: compactItems vs

/-- The texts of some members. -/
def compactMembers : List (String × Json) → List String
  | [] => []
  | (key, v) :: ms => (quoted key ++ ":" ++ v.compact) :: compactMembers ms

end

/-- Items on lines of their own between brackets. -/
def block (opening closing margin : String) (items : List String) : String :=
  if items.isEmpty then opening ++ closing
  else
    let inner := margin ++ "  "
    let lines := String.intercalate (",\n" ++ inner) items
    opening ++ "\n" ++ inner ++ lines ++ "\n" ++ margin ++ closing

mutual

/-- Text over several lines, the further ones indented by `margin` and more. -/
def prettyAt (margin : String) : Json → String
  | .arr items => block "[" "]" margin (prettyItems (margin ++ "  ") items)
  | .obj members => block "\x7b" "\x7d" margin (prettyMembers (margin ++ "  ") members)
  | v => v.scalarText

/-- The texts of some values at a margin. -/
def prettyItems (margin : String) : List Json → List String
  | [] => []
  | v :: vs => v.prettyAt margin :: prettyItems margin vs

/-- The texts of some members at a margin. -/
def prettyMembers (margin : String) : List (String × Json) → List String
  | [] => []
  | (key, v) :: ms => (quoted key ++ ": " ++ v.prettyAt margin) :: prettyMembers margin ms

end

/-- Text over several lines. -/
def pretty (v : Json) : String := v.prettyAt ""

end Json

end CodeDiagram
