/-
# The floating-point number nearest to a decimal

A decimal is cut to as many binary digits as a floating-point number has, the last one rounded with
a half going to the even neighbour.  Decimals that are too large become infinite.
-/
import CodeDiagram.Number.Binary
import CodeDiagram.Number.Decimal

namespace CodeDiagram.Number

/-- The place of the first binary digit of a fraction above zero: it is at least two to the answer
and below two to the answer plus one. -/
def binaryMagnitude (above below : Nat) : Int :=
  let guess : Int := (Nat.log2 above : Int) - Nat.log2 below
  let (up, down) := powerOfTwo guess
  if below * up ≤ above * down then guess else guess - 1

/-- The least exponent of a floating-point number. -/
def leastExponent : Int := -1074

/-- The bits of infinity. -/
def infinityBits : Nat := 2047 * Nat.pow 2 52

/-- The bits of the floating-point number nearest to a fraction above zero.  A significand that is
rounded up to one digit more carries into the exponent. -/
def nearestBits (above below : Nat) : Nat :=
  let exponent := max leastExponent (binaryMagnitude above below - 52)
  let (up, down) := powerOfTwo exponent
  let significand := roundHalfEven (above * down) (below * up)
  min infinityBits ((exponent - leastExponent).toNat * Nat.pow 2 52 + significand)

/-- No decimal with its first digit left of this place is finite. -/
def largestPlace : Int := 310

/-- Every decimal with its first digit right of this place is zero. -/
def smallestPlace : Int := -330

/-- The bits of the floating-point number nearest to a decimal. -/
def Decimal.nearestBits (d : Decimal) : Nat :=
  let place := digitCount d.digits + d.exponent
  if d.digits = 0 || place < smallestPlace then 0
  else if place > largestPlace then infinityBits
  else
    let (up, down) := powerOfTen d.exponent
    Number.nearestBits (d.digits * up) down

/-- The floating-point number nearest to a decimal, with a sign. -/
def nearest (negative : Bool) (d : Decimal) : Float :=
  Float.ofBits (UInt64.ofNat (d.nearestBits + if negative then Nat.pow 2 63 else 0))

end CodeDiagram.Number
