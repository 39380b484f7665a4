/-
# Reading JSON

A reader takes a value off the front of a text and gives it with the rest.  It fails because the
text is malformed, or, when a certain kind of value is expected, because there is another one.
Which of the two is told depends on which shows first from left to right.
-/
import CodeDiagram.Json.Basic
import CodeDiagram.Number.Natural
import CodeDiagram.Number.Nearest

namespace CodeDiagram.Json

/-! ## 1. Readers -/

/-- Why a value cannot be read. -/
inductive ReadFault where
  /-- The text is not JSON. -/
  | malformed
  /-- There is a value of another kind. -/
  | mismatch
deriving DecidableEq, Repr

/-- Takes a value off the front of a text. -/
abbrev Reader (α : Type) := List Char → Except ReadFault (α × List Char)

/-- The characters between values that mean nothing. -/
def isSpace (c : Char) : Bool := c == ' ' || c == '\n' || c == '\t' || c == '\r'

/-- The text without spaces at its start. -/
def skipSpace (cs : List Char) : List Char := cs.dropWhile isSpace

/-- A certain word. -/
def word (w : String) : Reader Unit := fun cs =>
  if w.toList.isPrefixOf cs then .ok ((), cs.drop w.length) else .error .malformed

/-! ## 2. Strings -/

/-- A piece of a string: a character, or half of one by its number. -/
inductive StringUnit where
  | char (c : Char)
  | code (n : Nat)
deriving DecidableEq, Repr

/-- What stands behind a backslash. -/
def escaped? : Char → Option Char
  | '"' => some '"'
  | '\\' => some '\\'
  | '/' => some '/'
  | 'b' => some '\x08'
  | 'f' => some '\x0c'
  | 'n' => some '\n'
  | 'r' => some '\r'
  | 't' => some '\t'
  | _ => none

/-- The pieces up to the closing quote. -/
def stringUnits : List Char → Option (List StringUnit × List Char)
  | '"' :: rest => some ([], rest)
  | '\\' :: 'u' :: a :: b :: c :: d :: rest => do
    let n ← Number.hexNumber? [a, b, c, d]
    let (units, rest) ← stringUnits rest
    return (.code n :: units, rest)
  | '\\' :: e :: rest => do
    let c ← escaped? e
    let (units, rest) ← stringUnits rest
    return (.char c :: units, rest)
  | c :: rest => do
    if c.toNat < 0x20 then none
    else
      let (units, rest) ← stringUnits rest
      return (.char c :: units, rest)
  | [] => none

/-- Whether a number is the first half of a character beyond the sixteen-bit ones. -/
def isHighHalf (n : Nat) : Bool := 0xD800 ≤ n && n ≤ 0xDBFF

/-- Whether a number is the second half of a character beyond the sixteen-bit ones. -/
def isLowHalf (n : Nat) : Bool := 0xDC00 ≤ n && n ≤ 0xDFFF

/-- Puts pieces together; a half without its other half is refused. -/
def joinUnits : List StringUnit → Option (List Char)
  | [] => some []
  | .char c :: rest => (joinUnits rest).map (c :: ·)
  | .code n :: rest =>
    if isHighHalf n then
      match rest with
      | .code m :: rest =>
        if isLowHalf m then
          (joinUnits rest).map (Char.ofNat (0x10000 + (n - 0xD800) * 0x400 + (m - 0xDC00)) :: ·)
        else none
      | _ => none
    else if isLowHalf n then none
    else (joinUnits rest).map (Char.ofNat n :: ·)

/-- A string after its opening quote. -/
def stringTail : Reader String := fun cs =>
  match stringUnits cs with
  | none => .error .malformed
  | some (units, rest) =>
    match joinUnits units with
    | none => .error .malformed
    | some text => .ok (String.ofList text, rest)

/-! ## 3. Numbers -/

/-- Digits in front of a text, and the rest. -/
def digitsOf (cs : List Char) : List Char × List Char :=
  (cs.takeWhile Number.isDigit, cs.dropWhile Number.isDigit)

/-- The exponent after its letter: none if it has no digits. -/
def exponentTail (cs : List Char) : Option (Int × List Char) :=
  let (negative, cs) :=
    match cs with
    | '+' :: rest => (false, rest)
    | '-' :: rest => (true, rest)
    | cs => (false, cs)
  let (digits, rest) := digitsOf cs
  if digits.isEmpty then none
  else
    let n : Int := Number.ofDigits digits
    some (if negative then -n else n, rest)

/-- The places after the point of a number, if there is one. -/
def placesTail : Reader (List Char)
  | '.' :: rest =>
    let (places, rest) := digitsOf rest
    if places.isEmpty then .error .malformed else .ok (places, rest)
  | rest => .ok ([], rest)

/-- The exponent of a number, or zero if there is none. -/
def powerTail : Reader Int := fun cs =>
  let tail (cs : List Char) : Except ReadFault (Int × List Char) :=
    match exponentTail cs with
    | some found => .ok found
    | none => .error .malformed
  match cs with
  | 'e' :: rest => tail rest
  | 'E' :: rest => tail rest
  | rest => .ok (0, rest)

/-- The floating-point number nearest to a decimal; one that is too large is refused. -/
def floatOf (negative : Bool) (d : Number.Decimal) : Except ReadFault Float :=
  let x := Number.nearest negative d
  if x.isInf then .error .malformed else .ok x

/-- Whether a whole number is kept as an integer: it has sixty-four bits, or with a minus sign
sixty-three and a sign of its own.  Zero has no integer with a minus sign. -/
def isInteger (negative : Bool) (n : Nat) : Bool :=
  if negative then 0 < n && n ≤ Nat.pow 2 63 else n < Number.countBound

/-- A number after its sign: an integer if it is written as one and is not too long, otherwise the
nearest floating-point number. -/
def numberTail (negative : Bool) : Reader Json := fun cs => do
  let (digits, rest) := digitsOf cs
  match digits with
  | [] => .error .malformed
  | '0' :: _ :: _ => .error .malformed
  | digits =>
    let whole := Number.ofDigits digits
    let fractional :=
      match rest with
      | '.' :: _ | 'e' :: _ | 'E' :: _ => true
      | _ => false
    if !fractional && isInteger negative whole then
      return (.int (if negative then -whole else whole), rest)
    else
      let (places, rest) ← placesTail rest
      let (power, rest) ← powerTail rest
      let x ← floatOf negative ⟨Number.ofDigits (digits ++ places), power - places.length⟩
      return (.float x, rest)

/-- A number. -/
def number : Reader Json
  | '-' :: cs => numberTail true cs
  | cs => numberTail false cs

/-! ## 4. Values -/

/-- How strings, after their opening quote, and numbers are read. -/
structure Leaves where
  text : Reader String
  number : Reader Json

mutual

/-- A value; `turns` bounds how deep and how long it can be. -/
def valueWithin (leaves : Leaves) : Nat → Reader Json
  | 0, _ => .error .malformed
  | turns + 1, cs =>
    match skipSpace cs with
    | '"' :: rest => (leaves.text rest).map fun (s, rest) => (.str s, rest)
    | '[' :: rest =>
      match skipSpace rest with
      | ']' :: rest => .ok (.arr [], rest)
      | rest => (itemsWithin leaves turns rest).map fun (items, rest) => (.arr items, rest)
    | '\x7b' :: rest =>
      match skipSpace rest with
      | '\x7d' :: rest => .ok (.obj [], rest)
      | rest => (membersWithin leaves turns rest).map fun (members, rest) => (.obj members, rest)
    | 't' :: rest => (word "rue" rest).map fun (_, rest) => (.bool true, rest)
    | 'f' :: rest => (word "alse" rest).map fun (_, rest) => (.bool false, rest)
    | 'n' :: rest => (word "ull" rest).map fun (_, rest) => (.null, rest)
    | rest => leaves.number rest

/-- The items of an array up to its bracket. -/
def itemsWithin (leaves : Leaves) : Nat → Reader (List Json)
  | 0, _ => .error .malformed
  | turns + 1, cs => do
    let (v, rest) ← valueWithin leaves turns cs
    match skipSpace rest with
    | ']' :: rest => return ([v], rest)
    | ',' :: rest =>
      let (vs, rest) ← itemsWithin leaves turns rest
      return (v :: vs, rest)
    | _ => .error .malformed

/-- The members of an object up to its brace. -/
def membersWithin (leaves : Leaves) : Nat → Reader (List (String × Json))
  | 0, _ => .error .malformed
  | turns + 1, cs => do
    match skipSpace cs with
    | '"' :: rest =>
      let (key, rest) ← leaves.text rest
      match skipSpace rest with
      | ':' :: rest =>
        let (v, rest) ← valueWithin leaves turns rest
        match skipSpace rest with
        | '\x7d' :: rest => return ([(key, v)], rest)
        | ',' :: rest =>
          let (ms, rest) ← membersWithin leaves turns rest
          return ((key, v) :: ms, rest)
        | _ => .error .malformed
      | _ => .error .malformed
    | _ => .error .malformed

end

/-- A value with certain leaves.  Each turn takes at least one character, so no value needs more
turns. -/
def valueWith (leaves : Leaves) : Reader Json := fun cs => valueWithin leaves (cs.length + 1) cs

/-- A value. -/
def value : Reader Json := valueWith ⟨stringTail, number⟩

/-- A text that is one value. -/
def parse (s : String) : Except ReadFault Json := do
  let (v, rest) ← value s.toList
  if (skipSpace rest).isEmpty then return v else .error .malformed

/-! ## 5. Values nobody asks for -/

/-- A string whose characters do not matter, after its opening quote: halves of characters may
stand alone. -/
def looseText : Reader String := fun cs =>
  match stringUnits cs with
  | none => .error .malformed
  | some (_, rest) => .ok ("", rest)

/-- A number whose value does not matter. -/
def looseNumber : Reader Json := fun cs => do
  let (digits, rest) := digitsOf (if cs.head? == some '-' then cs.drop 1 else cs)
  match digits with
  | [] => .error .malformed
  | '0' :: _ :: _ => .error .malformed
  | _ =>
    let (_, rest) ← placesTail rest
    let (_, rest) ← powerTail rest
    return (.null, rest)

/-- A value that only has to be well formed. -/
def ignored : Reader Unit := fun cs =>
  (valueWith ⟨looseText, looseNumber⟩ cs).map fun (_, rest) => ((), rest)

end CodeDiagram.Json
