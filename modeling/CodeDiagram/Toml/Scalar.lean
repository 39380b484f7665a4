/-
# Numbers, truth values and points in time in TOML

Digits may have single underscores between them.  Integers have sixty-four bits.  A point in time is
checked but not kept: nothing depends on it.
-/
import CodeDiagram.Number.Nearest
import CodeDiagram.Toml.Text

namespace CodeDiagram.Toml

open Number (isDigit ofDigits hexValue?)

/-- A value that holds no other. -/
inductive Scalar where
  | str (s : String)
  | int (n : Int)
  | float (x : Float)
  | bool (b : Bool)
  | moment

/-! ## 1. Digits -/

/-- Further digits of a class, with an underscore in front of any of them. -/
def moreDigits (p : Char → Bool) : List Char → List Char × List Char
  | '_' :: c :: rest =>
    if p c then
      let (digits, rest) := moreDigits p rest
      (c :: digits, rest)
    else ([], '_' :: c :: rest)
  | c :: rest =>
    if p c then
      let (digits, rest) := moreDigits p rest
      (c :: digits, rest)
    else ([], c :: rest)
  | [] => ([], [])

/-- Digits of a class, at least one. -/
def digits (p : Char → Bool) : Reader (List Char)
  | c :: rest =>
    if p c then
      let (digits, rest) := moreDigits p rest
      some (c :: digits, rest)
    else none
  | [] => none

/-- A sign, if there is one; whether it is a minus is told. -/
def sign : List Char → Bool × List Char
  | '+' :: rest => (false, rest)
  | '-' :: rest => (true, rest)
  | cs => (false, cs)

/-- The digits of a whole number: more than one only if the first is not zero. -/
def wholeDigits : Reader (List Char)
  | '0' :: rest => some (['0'], rest)
  | cs => digits isDigit cs

/-! ## 2. Numbers -/

/-- An integer, if it has sixty-four bits. -/
def integer? (n : Int) : Option Int :=
  let bound : Int := Nat.pow 2 63
  if -bound ≤ n && n < bound then some n else none

/-- An integer after the mark of its base. -/
def basedTail (base : Nat) : Reader Scalar := fun cs => do
  let (ds, rest) ← digits (fun c => (hexValue? c).any (· < base)) cs
  let n := ds.foldl (fun n c => base * n + (hexValue? c).getD 0) 0
  return (.int (← integer? n), rest)

/-- The places after a point, if there is one. -/
def places : Reader (List Char)
  | '.' :: rest => digits isDigit rest
  | cs => some ([], cs)

/-- An exponent, zero if there is none. -/
def exponent : Reader Int := fun cs =>
  let tail (cs : List Char) : Option (Int × List Char) := do
    let (negative, rest) := sign cs
    let (ds, rest) ← digits isDigit rest
    let n : Int := ofDigits ds
    return (if negative then -n else n, rest)
  match cs with
  | 'e' :: rest => tail rest
  | 'E' :: rest => tail rest
  | cs => some (0, cs)

/-- Whether what follows the whole digits makes a number a floating-point one. -/
def isFraction : List Char → Bool
  | '.' :: _ => true
  | 'e' :: _ => true
  | 'E' :: _ => true
  | _ => false

/-- A decimal number after its sign.  One that is too large to be finite is refused unless it is
negative. -/
def decimalTail (negative : Bool) : Reader Scalar := fun cs => do
  let (whole, rest) ← wholeDigits cs
  if isFraction rest then
    let (fraction, rest) ← places rest
    let (power, rest) ← exponent rest
    let x := Number.nearest negative
      ⟨ofDigits (whole ++ fraction), power - (fraction.length : Int)⟩
    if x.isInf && !negative then none else return (.float x, rest)
  else
    let n : Int := ofDigits whole
    return (.int (← integer? (if negative then -n else n)), rest)

/-- Infinity or what is not a number, after the sign. -/
def specialTail (negative : Bool) : Reader Scalar
  | 'i' :: 'n' :: 'f' :: rest => some (.float (if negative then -(1.0 / 0.0) else 1.0 / 0.0), rest)
  | 'n' :: 'a' :: 'n' :: rest => some (.float (0.0 / 0.0), rest)
  | _ => none

/-- A number in any form. -/
def number : Reader Scalar
  | '0' :: 'x' :: rest => basedTail 16 rest
  | '0' :: 'o' :: rest => basedTail 8 rest
  | '0' :: 'b' :: rest => basedTail 2 rest
  | cs =>
    let (negative, rest) := sign cs
    match specialTail negative rest with
    | some found => some found
    | none => decimalTail negative rest

/-! ## 3. Points in time -/

/-- A number of so many digits. -/
def fixedDigits (count : Nat) (cs : List Char) : Option (Nat × List Char) :=
  let ds := cs.take count
  if ds.length = count && ds.all isDigit then some (ofDigits ds, cs.drop count) else none

/-- A character that has to be there. -/
def expect (c : Char) : List Char → Option (List Char)
  | d :: rest => if d = c then some rest else none
  | [] => none

/-- Whether there is a year's extra day. -/
def isLeapYear (year : Nat) : Bool := year % 4 = 0 && (year % 100 ≠ 0 || year % 400 = 0)

/-- The number of days of a month. -/
def daysIn (year month : Nat) : Nat :=
  if month = 2 then (if isLeapYear year then 29 else 28)
  else if month = 4 || month = 6 || month = 9 || month = 11 then 30
  else 31

/-- The text after a date. -/
def afterDate? (cs : List Char) : Option (List Char) := do
  let (year, rest) ← fixedDigits 4 cs
  let (month, rest) ← fixedDigits 2 (← expect '-' rest)
  let (day, rest) ← fixedDigits 2 (← expect '-' rest)
  if 1 ≤ month && month ≤ 12 && 1 ≤ day && day ≤ daysIn year month then some rest else none

/-- The text after the fraction of a second, if there is one. -/
def afterFraction (cs : List Char) : List Char :=
  match cs with
  | '.' :: c :: rest => if isDigit c then rest.dropWhile isDigit else cs
  | cs => cs

/-- The text after hours and minutes. -/
def afterMinutes? (cs : List Char) : Option (List Char) := do
  let (hour, rest) ← fixedDigits 2 cs
  let (minute, rest) ← fixedDigits 2 (← expect ':' rest)
  if hour ≤ 23 && minute ≤ 59 then some rest else none

/-- The text after a time of day. -/
def afterTime? (cs : List Char) : Option (List Char) := do
  let (second, rest) ← fixedDigits 2 (← expect ':' (← afterMinutes? cs))
  if second ≤ 60 then some (afterFraction rest) else none

/-- The text after the distance from universal time, if there is one. -/
def afterOffset? : List Char → Option (List Char)
  | 'Z' :: rest => some rest
  | 'z' :: rest => some rest
  | '+' :: rest => afterMinutes? rest
  | '-' :: rest => afterMinutes? rest
  | cs => some cs

/-- The text after the time that may follow a date. -/
def afterDateTime? (cs : List Char) : Option (List Char) :=
  match cs with
  | 'T' :: rest => (afterTime? rest).bind afterOffset?
  | 't' :: rest => (afterTime? rest).bind afterOffset?
  | ' ' :: rest =>
    if (fixedDigits 2 rest).any (fun (_, r) => (expect ':' r).isSome) then
      (afterTime? rest).bind afterOffset?
    else some cs
  | cs => some cs

/-- Whether a text starts like a date. -/
def startsDate (cs : List Char) : Bool :=
  (fixedDigits 4 cs).any fun (_, rest) => (expect '-' rest).isSome

/-- Whether a text starts like a time of day. -/
def startsTime (cs : List Char) : Bool :=
  (fixedDigits 2 cs).any fun (_, rest) => (expect ':' rest).isSome

/-! ## 4. Scalars -/

/-- A value that holds no other. -/
def scalar : Reader Scalar := fun cs =>
  match cs with
  | '"' :: _ => (string cs).map fun (text, rest) => (.str (String.ofList text), rest)
  | '\'' :: _ => (string cs).map fun (text, rest) => (.str (String.ofList text), rest)
  | 't' :: 'r' :: 'u' :: 'e' :: rest => some (.bool true, rest)
  | 'f' :: 'a' :: 'l' :: 's' :: 'e' :: rest => some (.bool false, rest)
  | cs =>
    if startsDate cs then do return (.moment, ← afterDateTime? (← afterDate? cs))
    else if startsTime cs then do return (.moment, ← afterTime? cs)
    else number cs

end CodeDiagram.Toml
