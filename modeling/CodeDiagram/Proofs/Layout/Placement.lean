/-
# Every node has a place

Nodes are placed in four ways: there is none, there is one, none is joined to another, or the
simulation places them, and then the points are moved, scaled and perhaps put on levels.  Whichever
it is, there are as many points as nodes (`length_coordinates`), so the keys of the places are the
identities of the nodes, in order (`keys_layout`).
-/
import CodeDiagram.Layout.Placement

namespace CodeDiagram

/-! ## 1. Numbers of points -/

theorem Force.length_place (n : Nat) (edges : List (Nat × Nat)) (iterations : Nat)
    (spring : Option Float) (expired : Bool) (seed : UInt64) :
    (Force.place n edges iterations spring expired seed).length = n := by
  simp [Force.place, Force.Cloud.points]

namespace Placement

theorem length_circle (n : Nat) (scale : Float) : (circle n scale).length = n := by
  simp [circle]

section

variable {α : Type} [Coordinate α]

theorem length_rescale (scale : α) (ps : List (Point α)) :
    (rescale scale ps).length = ps.length := by
  unfold rescale
  dsimp only
  split <;> simp [centred]

theorem length_ranked (scale : α) {depths : List (Option Nat)} {ps : List (Point α)}
    (h : depths.length = ps.length) : (ranked scale depths ps).length = ps.length := by
  unfold ranked
  dsimp only
  split
  · rfl
  · rw [List.length_zipWith, h, Nat.min_self]

end

/-! ## 2. Places of nodes -/

/-- **There are as many points as nodes.** -/
theorem length_coordinates (settings : LayoutSettings) (g : Graph) (seed : UInt64)
    (tree expired : Bool) : (coordinates settings g seed tree expired).length = g.nodeCount := by
  unfold coordinates
  dsimp only
  split
  · rename_i hnone
    exact hnone.symm
  · split
    · rename_i hone
      exact hone.symm
    · split
      · exact length_circle _ _
      · have hfilled : (rescale settings.scale (Force.place g.nodeCount (edgePairs g)
            settings.iterations settings.springLength expired seed)).length = g.nodeCount := by
          rw [length_rescale, Force.length_place]
        split
        · rw [length_ranked, hfilled]
          rw [hfilled]
          simp [Graph.ids, Graph.nodeCount]
        · exact hfilled

/-- **The keys of the places are the identities of the nodes**, in order. -/
theorem keys_layout (settings : LayoutSettings) (g : Graph) (seed : UInt64) (tree expired : Bool) :
    (layout settings g seed tree expired).map (·.1) = g.ids := by
  refine List.map_fst_zip ?_
  rw [length_coordinates, Graph.ids, List.length_map]
  exact Nat.le_refl _

theorem points_layout (settings : LayoutSettings) (g : Graph) (seed : UInt64)
    (tree expired : Bool) : (layout settings g seed tree expired).map (·.2) =
      coordinates settings g seed tree expired := by
  refine List.map_snd_zip ?_
  rw [length_coordinates, Graph.ids, List.length_map]
  exact Nat.le_refl _

/-- A graph that only tells something is placed at the origin. -/
theorem layout_placeholder (settings : LayoutSettings) (type : String) (kind : NodeKind)
    (label : String) (seed : UInt64) (tree expired : Bool) :
    layout settings (.placeholder type kind label) seed tree expired = [(0, ⟨0, 0⟩)] := rfl

end Placement

end CodeDiagram
