/-
# Coordinates

What placing and drawing ask of a number.  Floating-point numbers are what runs; the rules that use
this class only can be read over exact numbers as well.
-/

namespace CodeDiagram

/-- Numbers that can be coordinates. -/
class Coordinate (α : Type) extends Add α, Sub α, Mul α, Div α where
  ofNat : Nat → α
  /-- An extent below this counts as none. -/
  tiny : α
  /-- Whether one number is below another. -/
  less : α → α → Bool
  /-- A number without its sign. -/
  magnitude : α → α
  /-- Whether a number is neither infinite nor undefined. -/
  finite : α → Bool
  /-- The larger of two numbers. -/
  larger : α → α → α
  /-- The smaller of two numbers. -/
  smaller : α → α → α

/-- A place in the plane. -/
structure Point (α : Type) where
  x : α
  y : α
deriving Repr

/-- The larger of two floating-point numbers, the other one if one is not a number. -/
def floatMax (a b : Float) : Float := if a < b || a.isNaN then b else a

/-- The smaller of two floating-point numbers, the other one if one is not a number. -/
def floatMin (a b : Float) : Float := if b < a || a.isNaN then b else a

instance : Coordinate Float where
  ofNat := Float.ofNat
  tiny := Float.scaleB 1.0 (-52)
  less a b := a < b
  magnitude := Float.abs
  finite := Float.isFinite
  larger := floatMax
  smaller := floatMin

end CodeDiagram
