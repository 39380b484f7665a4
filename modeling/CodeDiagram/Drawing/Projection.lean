/-
# From the layout to the canvas

The rectangle that holds some points is stretched over the drawing area of the canvas, each axis by
itself, with the vertical one turned over.  An axis on which all points are together has them in
the middle.  The rules use `Coordinate` only.
-/
import CodeDiagram.Layout.Coordinate

namespace CodeDiagram.Drawing

open Coordinate

variable {α : Type} [Coordinate α]

/-! ## 1. The canvas -/

/-- The width of the canvas. -/
def width : Nat := 1200

/-- The height of the canvas. -/
def height : Nat := 900

/-- The space left free at each border. -/
def margin : Nat := 60

/-- The space left free for the title, below the upper margin. -/
def titleHeight : Nat := 40

/-! ## 2. Extents -/

/-- The least and the largest of some numbers. -/
def bounds? : List α → Option (α × α)
  | [] => none
  | x :: xs => some (xs.foldl smaller x, xs.foldl larger x)

/-- Where one axis starts, and how long it is. -/
structure Axis (α : Type) where
  start : α
  span : α

/-- The rectangle that is stretched over the drawing area. -/
structure Projection (α : Type) where
  horizontal : Axis α
  vertical : Axis α

/-- The axis from the least to the largest of some numbers. -/
def Axis.fit (xs : List α) : Axis α :=
  match bounds? xs with
  | none => ⟨ofNat 0, ofNat 0⟩
  | some (low, high) => ⟨low, high - low⟩

/-- The smallest rectangle that holds some points. -/
def Projection.fit (ps : List (Point α)) : Projection α :=
  let empty : Axis α := ⟨ofNat 0, ofNat 0⟩
  match bounds? (ps.map (·.x)) with
  | none => ⟨empty, empty⟩
  | some (low, _) =>
    if finite low then ⟨.fit (ps.map (·.x)), .fit (ps.map (·.y))⟩ else ⟨empty, empty⟩

/-! ## 3. Stretching -/

/-- How far along an axis a number is, from zero to one; one half if the axis has hardly any
length. -/
def Axis.share (a : Axis α) (x : α) : α :=
  if less tiny a.span then (x - a.start) / a.span else ofNat 1 / ofNat 2

/-- The place of a point on the canvas. -/
def Projection.apply (f : Projection α) (p : Point α) : Point α where
  x := ofNat margin + f.horizontal.share p.x * ofNat (width - 2 * margin)
  y := ofNat (margin + titleHeight)
    + (ofNat 1 - f.vertical.share p.y) * ofNat (height - 2 * margin - titleHeight)

end CodeDiagram.Drawing
