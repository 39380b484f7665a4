/-
# Binary fractions

A finite floating-point number is a natural number times a power of two, and a sign.  All printing
starts from these parts and goes on in whole numbers.
-/

namespace CodeDiagram.Number

/-- A finite floating-point number: `significand * 2 ^ exponent`, perhaps negative. -/
structure Binary where
  negative : Bool
  significand : Nat
  exponent : Int
  /-- The next number below is half as far as the next one above. -/
  narrowBelow : Bool
deriving DecidableEq, Repr

/-- A floating-point number taken apart. -/
inductive Parts where
  | finite (b : Binary)
  | infinite (negative : Bool)
  | undefined (negative : Bool)
deriving DecidableEq, Repr

/-- Takes the bits of a floating-point number apart. -/
def partsOfBits (bits : UInt64) : Parts :=
  let n := bits.toNat
  let negative := n ≥ Nat.pow 2 63
  let power : Nat := n / Nat.pow 2 52 % Nat.pow 2 11
  let fraction : Nat := n % Nat.pow 2 52
  if power = 2047 then
    if fraction = 0 then .infinite negative else .undefined negative
  else if power = 0 then .finite ⟨negative, fraction, -1074, false⟩
  else .finite
    ⟨negative, Nat.pow 2 52 + fraction, (power : Int) - 1075, fraction = 0 && power > 1⟩

/-- Takes a floating-point number apart. -/
def parts (x : Float) : Parts := partsOfBits x.toBits

/-- The power of two of a fraction, above the line and below it. -/
def powerOfTwo (exponent : Int) : Nat × Nat :=
  if exponent ≥ 0 then (Nat.pow 2 exponent.toNat, 1) else (1, Nat.pow 2 (-exponent).toNat)

/-- The size of a number as a fraction. -/
def Binary.fraction (b : Binary) : Nat × Nat :=
  let (above, below) := powerOfTwo b.exponent
  (b.significand * above, below)

/-- The whole number nearest to a fraction; a half goes to the even neighbour. -/
def roundHalfEven (above below : Nat) : Nat :=
  let whole := above / below
  let rest := 2 * (above % below)
  if rest < below then whole
  else if rest > below then whole + 1
  else if whole % 2 = 0 then whole else whole + 1

end CodeDiagram.Number
