/-
# The force simulation

Nodes start at random places of the unit square.  In each turn all pairs of nodes push each other
away and the ends of each edge pull each other close; then every node moves along the sum of the
forces on it, no further than the temperature allows, which falls from turn to turn.  Nodes that
meet are pushed apart in a random direction.

The order of the floating-point operations is part of the result: two nodes at a time, the lower
number first.
-/
import CodeDiagram.Layout.Coordinate
import CodeDiagram.Layout.RandomStream

namespace CodeDiagram.Force

/-! ## 1. Clouds of points -/

/-- Numbered points, by coordinate. -/
structure Cloud where
  xs : FloatArray
  ys : FloatArray

/-- The number at a place; zero beyond the end. -/
@[inline] def entry (a : FloatArray) (i : Nat) : Float := if h : i < a.size then a[i] else 0

/-- The array with another number at a place. -/
@[inline] def withEntry (a : FloatArray) (i : Nat) (x : Float) : FloatArray :=
  if h : i < a.size then a.set i x h else a

/-- The array with something added at a place. -/
@[inline] def withSum (a : FloatArray) (i : Nat) (x : Float) : FloatArray :=
  withEntry a i (entry a i + x)

/-- The array with something taken off at a place. -/
@[inline] def withDifference (a : FloatArray) (i : Nat) (x : Float) : FloatArray :=
  withEntry a i (entry a i - x)

/-- Points at the origin. -/
def Cloud.still (n : Nat) : Cloud :=
  let zeros : FloatArray := ⟨Array.replicate n 0⟩
  ⟨zeros, zeros⟩

/-- Points at random places. -/
def Cloud.scattered (n : Nat) (rng : RandomStream) : Cloud × RandomStream :=
  (List.range n).foldl (fun (c, rng) _ =>
    let (x, rng) := rng.unit
    let (y, rng) := rng.unit
    (⟨c.xs.push x, c.ys.push y⟩, rng)) (⟨.empty, .empty⟩, rng)

/-- The first `n` points as a list. -/
def Cloud.points (c : Cloud) (n : Nat) : List (Point Float) :=
  (List.range n).map fun i => ⟨entry c.xs i, entry c.ys i⟩

/-! ## 2. Forces -/

/-- Nodes that are closer than this have met. -/
def leastDistance : Float := 0.01

/-- The temperature of the first turn. -/
def firstTemperature : Float := 0.1

/-- What is given to a simulation. -/
structure Rules where
  /-- The best length of an edge. -/
  spring : Float
  turns : Nat

/-- The vector between two nodes and its length. -/
structure Gap where
  dx : Float
  dy : Float
  length : Float

/-- A gap in a random direction. -/
def Gap.random (rng : RandomStream) : Gap × RandomStream :=
  let (dx, rng) := rng.between (-leastDistance) leastDistance
  let (dy, rng) := rng.between (-leastDistance) leastDistance
  (⟨dx, dy, floatMax (dx * dx + dy * dy).sqrt leastDistance⟩, rng)

/-- Forces in progress, and the rest of the random numbers. -/
structure Sum where
  dx : FloatArray
  dy : FloatArray
  rng : RandomStream

/-- The force on two nodes is added to one and taken off the other. -/
@[inline] def Sum.push (s : Sum) (i j : Nat) (fx fy : Float) : Sum :=
  { s with
    dx := withDifference (withSum s.dx i fx) j fx
    dy := withDifference (withSum s.dy i fy) j fy }

/-- The force between two nodes is `strength` of their distance, from `j` to `i`. -/
@[inline] def Sum.between (c : Cloud) (strength : Float → Float) (s : Sum) (i j : Nat) : Sum :=
  let dx := entry c.xs i - entry c.xs j
  let dy := entry c.ys i - entry c.ys j
  let length := (dx * dx + dy * dy).sqrt
  if length < leastDistance then
    let (gap, rng) := Gap.random s.rng
    let force := strength gap.length
    ({ s with rng } : Sum).push i j (gap.dx / gap.length * force) (gap.dy / gap.length * force)
  else
    let force := strength length
    s.push i j (dx / length * force) (dy / length * force)

/-- All pairs push each other away. -/
def repel (k : Float) (c : Cloud) (n : Nat) (s : Sum) : Sum :=
  n.fold (fun i _ s =>
    (n - (i + 1)).fold (fun j _ s => s.between c (fun d => k * k / d) i (i + 1 + j)) s) s

/-- The ends of each edge pull each other close; an edge from a node to itself does nothing. -/
def attract (k : Float) (c : Cloud) (edges : List (Nat × Nat)) (s : Sum) : Sum :=
  edges.foldl (fun s (a, b) => if a == b then s else s.between c (fun d => -(d * d / k)) a b) s

/-- Every node moves along the force on it. -/
def move (temperature : Float) (n : Nat) (s : Sum) (c : Cloud) : Cloud :=
  n.fold (fun i _ c =>
    let dx := entry s.dx i
    let dy := entry s.dy i
    let length := (dx * dx + dy * dy).sqrt
    if length < Float.scaleB 1.0 (-52) then c
    else
      let step := floatMin length temperature
      ⟨withSum c.xs i (dx / length * step), withSum c.ys i (dy / length * step)⟩) c

/-! ## 3. The simulation -/

/-- A number of turns, from a temperature that falls by `cooling` after each. -/
def simulate (n : Nat) (edges : List (Nat × Nat)) (k cooling : Float) :
    Nat → Float → Cloud → RandomStream → Cloud
  | 0, _, c, _ => c
  | turns + 1, temperature, c, rng =>
    let still := Cloud.still n
    let s := repel k c n ⟨still.xs, still.ys, rng⟩
    let s := attract k c edges s
    simulate n edges k cooling turns (temperature - cooling) (move temperature n s c) s.rng

/-- Places `n` nodes that edges join, with all chance taken from a seed. -/
def place (n : Nat) (edges : List (Nat × Nat)) (iterations : Nat) (spring : Option Float)
    (expired : Bool) (seed : UInt64) : List (Point Float) :=
  let (start, rng) := Cloud.scattered n (.ofSeed seed)
  let k := spring.getD (1.0 / (Float.ofNat n).sqrt)
  let cooling := firstTemperature / (Float.ofNat iterations + 1.0)
  let turns := if expired then 0 else iterations
  (simulate n edges k cooling turns firstTemperature start rng).points n

end CodeDiagram.Force
