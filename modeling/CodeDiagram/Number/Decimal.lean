/-
# Decimal text of numbers

Two ways to write a floating-point number: with the fewest digits that read back as the same number,
and with exactly one place after the point.  Text without an exponent is written here; a format that
writes exponents puts its digits together itself.
-/
import CodeDiagram.Number.Binary

namespace CodeDiagram.Number

/-! ## 1. The fewest digits -/

/-- A decimal number: `digits * 10 ^ exponent`. -/
structure Decimal where
  digits : Nat
  exponent : Int
deriving DecidableEq, Repr

/-- A power of ten, above the line and below it. -/
def powerOfTen (exponent : Int) : Nat × Nat :=
  if exponent ≥ 0 then (Nat.pow 10 exponent.toNat, 1) else (1, Nat.pow 10 (-exponent).toNat)

/-- The numbers that read back as a given one: from `low` to `high`, in units of `above / below`,
with the ends if `closed`.  `middle` is the number itself. -/
structure Interval where
  low : Nat
  middle : Nat
  high : Nat
  closed : Bool
  above : Nat
  below : Nat

/-- The numbers that read back as `b`. -/
def Binary.interval (b : Binary) : Interval :=
  let (above, below) := powerOfTwo (b.exponent - 2)
  { low := 4 * b.significand - if b.narrowBelow then 1 else 2
    middle := 4 * b.significand
    high := 4 * b.significand + 2
    closed := b.significand % 2 = 0
    above
    below }

/-- Whether a decimal number lies in an interval. -/
def Interval.contains (i : Interval) (d : Decimal) : Bool :=
  let (up, down) := powerOfTen d.exponent
  let value := d.digits * up * i.below
  let low := i.low * i.above * down
  let high := i.high * i.above * down
  if i.closed then low ≤ value && value ≤ high else low < value && value < high

/-- The distance of a decimal number from the middle of an interval, in a unit that depends on the
interval and the exponent only. -/
def Interval.distance (i : Interval) (d : Decimal) : Nat :=
  let (up, down) := powerOfTen d.exponent
  let value := d.digits * up * i.below
  let middle := i.middle * i.above * down
  (value - middle) + (middle - value)

/-- The number of decimal digits of a whole number; one for zero. -/
def digitCount (n : Nat) : Nat := (Nat.toDigits 10 n).length

/-- The least exponent `p`, up to a bound, with a fraction below one times `10 ^ (p + 1)` at least
one; the answer is `-p`. -/
def leadingZeros (above below : Nat) : Nat → Nat
  | 0 => 0
  | bound + 1 => if above * 10 ≥ below then 0 else leadingZeros (above * 10) below bound + 1

/-- How many digits the whole part of a fraction has; zero or less when it is below one. -/
def magnitude (above below : Nat) : Int :=
  if above ≥ below then digitCount (above / below) else -(leadingZeros above below 400 : Int)

/-- The decimals of a given number of digits around a fraction that lie in an interval, the nearer
one if both do and the even one if they are equally near. -/
def candidate? (i : Interval) (exponent : Int) : Option Decimal :=
  let (up, down) := powerOfTen exponent
  let floor := i.middle * i.above * down / (i.below * up)
  let lower : Decimal := ⟨floor, exponent⟩
  let upper : Decimal := ⟨floor + 1, exponent⟩
  match i.contains lower, i.contains upper with
  | true, false => some lower
  | false, true => some upper
  | false, false => none
  | true, true =>
    let a := i.distance lower
    let b := i.distance upper
    if a < b then some lower
    else if b < a then some upper
    else if floor % 2 = 0 then some lower else some upper

/-- The first hit with one digit more at a time. -/
def firstCandidate (i : Interval) (magnitude : Int) (digits : Nat) : Nat → Decimal
  | 0 => ⟨i.middle * i.above / i.below, 0⟩
  | turns + 1 =>
    match candidate? i (magnitude - digits) with
    | some d => d
    | none => firstCandidate i magnitude (digits + 1) turns

/-- A decimal without zeros at its end. -/
def Decimal.stripped (d : Decimal) : Nat → Decimal
  | 0 => d
  | turns + 1 =>
    if d.digits % 10 = 0 && d.digits ≠ 0 then
      Decimal.stripped ⟨d.digits / 10, d.exponent + 1⟩ turns
    else d

/-- The decimal with the fewest digits that reads back as `b`, which is not zero. -/
def Binary.shortest (b : Binary) : Decimal :=
  let (above, below) := b.fraction
  (firstCandidate b.interval (magnitude above below) 1 17).stripped 18

/-! ## 2. Text without an exponent -/

/-- A number of zeros. -/
def zeros (n : Nat) : String := String.ofList (List.replicate n '0')

/-- Digits with a point in front of the last `places` of them. -/
def withPoint (digits : Nat) (places : Nat) : String :=
  let text := toString digits
  let text := zeros (places + 1 - text.length) ++ text
  let cs := text.toList
  String.ofList (cs.take (cs.length - places)) ++ "." ++
    String.ofList (cs.drop (cs.length - places))

/-- A decimal in positional notation. -/
def Decimal.positional (d : Decimal) : String :=
  if d.exponent ≥ 0 then toString d.digits ++ zeros d.exponent.toNat
  else withPoint d.digits (-d.exponent).toNat

/-- A sign in front of a text. -/
def signed (negative : Bool) (text : String) : String := if negative then "-" ++ text else text

/-- The shortest text of a number, without an exponent. -/
def plain (x : Float) : String :=
  match parts x with
  | .undefined _ => "NaN"
  | .infinite negative => signed negative "inf"
  | .finite b =>
    signed b.negative (if b.significand = 0 then "0" else b.shortest.positional)

/-! ## 3. One place after the point -/

/-- A number with one place after the point; a half goes to the even digit. -/
def onePlace (x : Float) : String :=
  match parts x with
  | .undefined _ => "NaN"
  | .infinite negative => signed negative "inf"
  | .finite b =>
    let (above, below) := b.fraction
    signed b.negative (withPoint (roundHalfEven (above * 10) below) 1)

end CodeDiagram.Number
