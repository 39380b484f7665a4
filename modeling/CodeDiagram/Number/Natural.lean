/-
# Whole numbers from text

A whole number is written in decimal digits, with a plus sign in front if one likes, and lies below
a bound.  The numbers of characters are written in hexadecimal digits of either case.
-/

namespace CodeDiagram.Number

/-- The bound of counts. -/
def countBound : Nat := UInt64.size

/-- The bound of ports. -/
def portBound : Nat := UInt16.size

/-- Whether a character is a decimal digit. -/
def isDigit (c : Char) : Bool := '0' ≤ c && c ≤ '9'

/-- The value of a decimal digit. -/
def digitValue (c : Char) : Nat := c.toNat - '0'.toNat

/-- The number that decimal digits stand for. -/
def ofDigits (cs : List Char) : Nat := cs.foldl (fun n c => 10 * n + digitValue c) 0

/-- The value of a hexadecimal digit. -/
def hexValue? (c : Char) : Option Nat :=
  if isDigit c then some (digitValue c)
  else if 'a' ≤ c && c ≤ 'f' then some (c.toNat - 'a'.toNat + 10)
  else if 'A' ≤ c && c ≤ 'F' then some (c.toNat - 'A'.toNat + 10)
  else none

/-- The number that hexadecimal digits stand for, if they are all digits. -/
def hexNumber? (cs : List Char) : Option Nat :=
  cs.foldlM (fun n c => (hexValue? c).map (16 * n + ·)) 0

/-- A text without a plus sign in front. -/
def dropPlus : List Char → List Char
  | '+' :: rest => rest
  | cs => cs

/-- The whole number below `bound` that a text stands for. -/
def natural? (bound : Nat) (s : String) : Option Nat :=
  let digits := dropPlus s.toList
  if digits.isEmpty || !digits.all isDigit then none
  else if ofDigits digits < bound then some (ofDigits digits) else none

end CodeDiagram.Number
