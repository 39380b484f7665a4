/-
# Coordinates that are not rounded

Floating-point numbers are what placing and drawing run on.  The same rules are read here over the
rational numbers (`Coordinate.exact`), where they do what they are meant to do, and over rational
numbers that become undefined once something is divided by zero (`Coordinate.guarded`): a rule that
keeps its results defined divides by nothing that is zero.  The bound below which an extent counts
as none is a parameter of both.
-/
import CodeDiagram.Layout.Coordinate
import Mathlib.Algebra.Order.Field.Rat
import Mathlib.Algebra.Order.Group.Unbundled.Abs
import Mathlib.Order.Bounds.Basic

namespace CodeDiagram

/-! ## 1. The two readings -/

/-- Rational numbers as coordinates. -/
@[reducible] def Coordinate.exact (tiny : ℚ) : Coordinate ℚ where
  toAdd := inferInstance
  toSub := inferInstance
  toMul := inferInstance
  toDiv := inferInstance
  ofNat n := n
  tiny := tiny
  less a b := a < b
  magnitude a := |a|
  finite _ := true
  larger := max
  smaller := min

/-- Rational numbers as coordinates, of which a quotient by zero is none. -/
@[reducible] def Coordinate.guarded (tiny : ℚ) : Coordinate (Option ℚ) where
  toAdd := ⟨Option.map₂ (· + ·)⟩
  toSub := ⟨Option.map₂ (· - ·)⟩
  toMul := ⟨Option.map₂ (· * ·)⟩
  toDiv := ⟨fun a b => a.bind fun a => b.bind fun b => if b = 0 then none else some (a / b)⟩
  ofNat n := some n
  tiny := some tiny
  less a b := a.any fun a => b.any fun b => a < b
  magnitude := Option.map abs
  finite := Option.isSome
  larger := Option.map₂ max
  smaller := Option.map₂ min

namespace Coordinate

section

variable (tiny a b : ℚ)

@[simp] theorem ofNat_exact (n : Nat) : (exact tiny).ofNat n = n := rfl

@[simp] theorem tiny_exact : (exact tiny).tiny = tiny := rfl

@[simp] theorem less_exact : (exact tiny).less a b = decide (a < b) := rfl

@[simp] theorem finite_exact : (exact tiny).finite a = true := rfl

@[simp] theorem ofNat_guarded (n : Nat) : (guarded tiny).ofNat n = some (n : ℚ) := rfl

@[simp] theorem tiny_guarded : (guarded tiny).tiny = some tiny := rfl

@[simp] theorem less_guarded :
    (guarded tiny).less (some a) (some b) = decide (a < b) := rfl

@[simp] theorem finite_guarded : (guarded tiny).finite (some a) = true := rfl

@[simp] theorem add_guarded :
    letI := guarded tiny
    some a + some b = some (a + b) := rfl

@[simp] theorem sub_guarded :
    letI := guarded tiny
    some a - some b = some (a - b) := rfl

@[simp] theorem mul_guarded :
    letI := guarded tiny
    some a * some b = some (a * b) := rfl

@[simp] theorem div_guarded {b : ℚ} (h : b ≠ 0) :
    letI := guarded tiny
    some a / some b = some (a / b) := if_neg h

end

end Coordinate

/-- A point with other coordinates. -/
def Point.map {α β : Type} (f : α → β) (p : Point α) : Point β := ⟨f p.x, f p.y⟩

section

variable {α β : Type} (f : α → β)

@[simp] theorem Point.map_x (p : Point α) : (p.map f).x = f p.x := rfl

@[simp] theorem Point.map_y (p : Point α) : (p.map f).y = f p.y := rfl

end

/-! ## 2. Largest and least -/

section

variable {α : Type} [LinearOrder α]

theorem isGreatest_foldl_max (a : α) (xs : List α) :
    IsGreatest {b | b ∈ a :: xs} (xs.foldl max a) := by
  have hfold : (a :: xs).max? = some (xs.foldl max a) := List.max?_cons'
  have h := List.max?_eq_some_iff.mp hfold
  exact ⟨h.1, fun b hb => h.2 b hb⟩

theorem isLeast_foldl_min (a : α) (xs : List α) :
    IsLeast {b | b ∈ a :: xs} (xs.foldl min a) := by
  have hfold : (a :: xs).min? = some (xs.foldl min a) := List.min?_cons'
  have h := List.min?_eq_some_iff.mp hfold
  exact ⟨h.1, fun b hb => h.2 b hb⟩

end

/-! ## 3. Folds that stay defined -/

theorem foldl_map₂_some {α : Type} (op : α → α → α) (a : α) (xs : List α) :
    (xs.map some).foldl (Option.map₂ op) (some a) = some (xs.foldl op a) := by
  induction xs generalizing a with
  | nil => rfl
  | cons x xs ih => exact ih (op a x)

end CodeDiagram
