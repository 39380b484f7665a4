/-
# Placement

Where the nodes of a graph are drawn.  One node is at the origin and nodes without edges are on a
circle; any other graph is placed by the force simulation, moved and scaled to fill a square, and
if it is a tree its levels are then put on horizontal lines, the roots on top.
-/
import CodeDiagram.Graph.Depth
import CodeDiagram.Layout.Force
import CodeDiagram.Settings.Basic

namespace CodeDiagram

open Coordinate

/-- A place for each node, in the order of the nodes. -/
abbrev Positions := List (NodeId × Point Float)

namespace Placement

/-! ## 1. Filling the square -/

section
variable {α : Type} [Coordinate α]

/-- The mean of some numbers. -/
def mean (xs : List α) : α := xs.foldl (· + ·) (ofNat 0) / ofNat xs.length

/-- The points moved so that their mean is the origin. -/
def centred (ps : List (Point α)) : List (Point α) :=
  let cx := mean (ps.map (·.x))
  let cy := mean (ps.map (·.y))
  ps.map fun p => ⟨p.x - cx, p.y - cy⟩

/-- The largest coordinate, whatever its sign. -/
def extent (ps : List (Point α)) : α :=
  (ps.flatMap fun p => [magnitude p.x, magnitude p.y]).foldl larger (ofNat 0)

/-- The points centred, with `scale` as their largest coordinate unless there is hardly any. -/
def rescale (scale : α) (ps : List (Point α)) : List (Point α) :=
  let ps := centred ps
  let size := extent ps
  if less size tiny then ps
  else ps.map fun p => ⟨p.x * (scale / size), p.y * (scale / size)⟩

/-! ## 2. Levels -/

/-- The height of a level: `scale` at level zero, `-scale` at the deepest. -/
def levelHeight (scale : α) (deepest depth : Nat) : α :=
  scale - ofNat 2 * scale * ofNat depth / ofNat deepest

/-- The points with the height of their level; one without a level stays where it is. -/
def ranked (scale : α) (depths : List (Option Nat)) (ps : List (Point α)) : List (Point α) :=
  let deepest := (depths.filterMap id).foldl max 0
  if deepest = 0 then ps
  else List.zipWith (fun depth p =>
    match depth with
    | some depth => { p with y := levelHeight scale deepest depth }
    | none => p) depths ps

end

/-! ## 3. The circle -/

/-- A full turn. -/
def fullTurn : Float := 6.283185307179586

/-- Points at equal distances on a circle. -/
def circle (n : Nat) (scale : Float) : List (Point Float) :=
  (List.range n).map fun i =>
    let angle := fullTurn * Float.ofNat i / Float.ofNat n
    ⟨scale * angle.cos, scale * angle.sin⟩

/-! ## 4. Graphs -/

/-- The edges of a graph as pairs of places in its list of nodes. -/
def edgePairs (g : Graph) : List (Nat × Nat) :=
  g.edges.filterMap fun e => do return (← g.indexOf? e.source, ← g.indexOf? e.target)

/-- The coordinates of the nodes, in order. -/
def coordinates (settings : LayoutSettings) (g : Graph) (seed : UInt64) (tree expired : Bool) :
    List (Point Float) :=
  let n := g.nodeCount
  if n = 0 then []
  else if n = 1 then [⟨0, 0⟩]
  else if g.edgeCount = 0 then circle n settings.scale
  else
    let placed := Force.place n (edgePairs g) settings.iterations settings.springLength expired seed
    let filled := rescale settings.scale placed
    if tree then
      let depths := g.depths
      ranked settings.scale (g.ids.map fun id => depths.lookup id) filled
    else filled

/-- The places of the nodes.  With `expired` set there is no time left for the simulation. -/
def layout (settings : LayoutSettings) (g : Graph) (seed : UInt64) (tree : Bool)
    (expired : Bool := false) : Positions :=
  g.ids.zip (coordinates settings g seed tree expired)

end Placement

end CodeDiagram
