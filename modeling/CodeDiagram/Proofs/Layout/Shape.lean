/-
# Places depend on the shape

The shape of a graph is the number of its nodes and its edges as pairs of places in the list of
nodes.  Two graphs of one shape may differ in everything else: identities, kinds, labels, lines,
relations.  Their nodes are placed alike, number for number (`run_placed_by_shape`).

The simulation works on places from the start, so there is little to show of it.  Levels are found
by a search that works on identities; but a node and its counterpart, which stands at the same place
of the other graph, are as far from the roots (`SameShape.depth?_eq`), since walks and roots go
along with counterparts (`Renames`).
-/
import CodeDiagram.Proofs.Graph.Searching
import CodeDiagram.Proofs.Layout.Placement
import Mathlib.Data.List.GetD

namespace CodeDiagram

open CodeDiagram.Graph

namespace Graph

variable {g g' : Graph}

/-! ## 1. Nodes under other names -/

/-- Edges and roots go along with nodes that are named anew. -/
structure Renames (f : NodeId → NodeId) (g g' : Graph) : Prop where
  target : ∀ a, ∀ b ∈ g.targets a, f b ∈ g'.targets (f a)
  source : ∀ r, g.IsSource r → g'.IsSource (f r)

namespace Renames

variable {f f' : NodeId → NodeId}

/-- So do walks from roots. -/
theorem isFromRoot (h : Renames f g g') {id : NodeId} {n : Nat} (hid : g.IsFromRoot id n) :
    g'.IsFromRoot (f id) n := by
  obtain ⟨r, hr, hw⟩ := isFromRoot_iff.mp hid
  exact isFromRoot_iff.mpr ⟨f r, h.source r hr, hw.map h.target⟩

/-- **A node that can be named back has the same depth** under its new name. -/
theorem depth?_eq (h : Renames f g g') (h' : Renames f' g' g) (hg : g.ids.Nodup)
    (hg' : g'.ids.Nodup) {id : NodeId} (hback : f' (f id) = id) :
    g.depth? id = g'.depth? (f id) := by
  have hsame : ∀ n, g.IsFromRoot id n ↔ g'.IsFromRoot (f id) n := by
    intro n
    refine ⟨h.isFromRoot, fun hid => ?_⟩
    have := h'.isFromRoot hid
    rwa [hback] at this
  refine Option.ext fun n => ?_
  rw [depth?_eq_some_iff hg, depth?_eq_some_iff hg']
  simp only [hsame]

end Renames

/-! ## 2. Shapes -/

/-- The ends of an edge as places in the list of nodes. -/
def placesOf (g : Graph) (e : Edge) : Nat × Nat := (g.ids.idxOf e.source, g.ids.idxOf e.target)

/-- The number of nodes, and the edges as pairs of places. -/
def shape (g : Graph) : Nat × List (Nat × Nat) := (g.nodeCount, g.edges.map g.placesOf)

/-- The node that stands in another graph where a node stands in this one. -/
def counterpart (g g' : Graph) (id : NodeId) : NodeId := g'.ids.getD (g.ids.idxOf id) id

/-- Nodes that stand at the same place are counterparts. -/
theorem eq_counterpart {id id' : NodeId} (hid' : id' ∈ g'.ids)
    (hplace : g'.ids.idxOf id' = g.ids.idxOf id) : id' = counterpart g g' id := by
  have hlt := List.idxOf_lt_length_iff.mpr hid'
  rw [counterpart, ← hplace, List.getD_eq_getElem _ _ hlt, List.getElem_idxOf hlt]

/-- If there are as many nodes, every node has a counterpart. -/
theorem counterpart_spec (hg' : g'.ids.Nodup) (hcount : g.nodeCount = g'.nodeCount) {id : NodeId}
    (hid : id ∈ g.ids) :
    counterpart g g' id ∈ g'.ids ∧ g'.ids.idxOf (counterpart g g' id) = g.ids.idxOf id := by
  have hlt := List.idxOf_lt_length_iff.mpr hid
  rw [length_ids, hcount, ← length_ids] at hlt
  rw [counterpart, List.getD_eq_getElem _ _ hlt]
  exact ⟨List.getElem_mem hlt, hg'.idxOf_getElem _ hlt⟩

theorem counterpart_counterpart (hg' : g'.ids.Nodup) (hcount : g.nodeCount = g'.nodeCount)
    {id : NodeId} (hid : id ∈ g.ids) : counterpart g' g (counterpart g g' id) = id := by
  obtain ⟨-, hplace⟩ := counterpart_spec hg' hcount hid
  exact (eq_counterpart hid hplace.symm).symm

/-- An edge of a graph is one of any graph of its shape, between the counterparts. -/
theorem exists_edge_of_shape (hg' : g'.Sound) (h : g.shape = g'.shape) {e : Edge}
    (he : e ∈ g.edges) : ∃ e' ∈ g'.edges, e'.source = counterpart g g' e.source ∧
      e'.target = counterpart g g' e.target := by
  have hmem : g.placesOf e ∈ g'.edges.map g'.placesOf := by
    rw [← (Prod.mk.inj h).2]
    exact List.mem_map_of_mem he
  obtain ⟨e', he', hplaces⟩ := List.mem_map.mp hmem
  obtain ⟨hsource, htarget⟩ := Prod.mk.inj hplaces
  obtain ⟨hs, ht⟩ := hg'.joined e' he'
  exact ⟨e', he', eq_counterpart hs hsource, eq_counterpart ht htarget⟩

/-- **Counterparts** go along with edges and roots. -/
theorem renames_counterpart (hg : g.Sound) (hg' : g'.Sound) (h : g.shape = g'.shape) :
    Renames (counterpart g g') g g' where
  target := by
    intro a b hb
    obtain ⟨e, he, rfl, rfl⟩ := mem_targets.mp hb
    obtain ⟨e', he', hs, ht⟩ := exists_edge_of_shape hg' h he
    exact mem_targets.mpr ⟨e', he', hs, ht⟩
  source := by
    rintro r ⟨hr, hnone⟩
    have hcount := (Prod.mk.inj h).1
    refine ⟨(counterpart_spec hg'.nodup_ids hcount hr).1, fun e' he' hend => ?_⟩
    -- the counterpart of such an edge would end at the root
    obtain ⟨e, he, -, ht⟩ := exists_edge_of_shape hg h.symm he'
    rw [hend, counterpart_counterpart hg'.nodup_ids hcount hr] at ht
    exact hnone e he ht

/-- **Depths depend on the shape**: nodes at the same place have the same depth. -/
theorem map_depth?_eq (hg : g.Sound) (hg' : g'.Sound) (h : g.shape = g'.shape) :
    g.ids.map g.depth? = g'.ids.map g'.depth? := by
  have hcount := (Prod.mk.inj h).1
  refine List.ext_getElem (by simp [length_ids, hcount]) fun i hi hi' => ?_
  rw [List.length_map] at hi hi'
  have hplace : g'.ids.idxOf g'.ids[i] = g.ids.idxOf g.ids[i] := by
    rw [hg'.nodup_ids.idxOf_getElem i hi', hg.nodup_ids.idxOf_getElem i hi]
  have hback := counterpart_counterpart hg'.nodup_ids hcount (List.getElem_mem hi)
  rw [List.getElem_map, List.getElem_map, eq_counterpart (List.getElem_mem hi') hplace]
  exact (renames_counterpart hg hg' h).depth?_eq (renames_counterpart hg' hg h.symm)
    hg.nodup_ids hg'.nodup_ids hback

end Graph

/-! ## 3. Layouts -/

namespace Placement

/-- The pairs of places that the simulation works on are those of the shape. -/
theorem edgePairs_eq {g : Graph} (hg : g.Sound) : edgePairs g = g.edges.map g.placesOf := by
  have hfound : ∀ id ∈ g.ids, g.indexOf? id = some (g.ids.idxOf id) := by
    intro id hid
    rw [indexOf?_eq_some_iff hg.nodup_ids]
    exact List.getElem?_idxOf hid
  rw [← List.filterMap_eq_map]
  refine List.filterMap_congr fun e he => ?_
  obtain ⟨hs, ht⟩ := hg.joined e he
  rw [hfound _ hs, hfound _ ht]
  rfl

/-- **Coordinates depend on the shape.** -/
theorem coordinates_eq {g g' : Graph} (hg : g.Sound) (hg' : g'.Sound) (h : g.shape = g'.shape)
    (settings : LayoutSettings) (seed : UInt64) (tree expired : Bool) :
    coordinates settings g seed tree expired = coordinates settings g' seed tree expired := by
  obtain ⟨hcount, hplaces⟩ := Prod.mk.inj h
  have hpairs : edgePairs g = edgePairs g' := by
    rw [edgePairs_eq hg, edgePairs_eq hg', hplaces]
  have hedges : g.edgeCount = g'.edgeCount := by
    simpa [edgeCount] using congrArg List.length hplaces
  have hdepths : (g.ids.map fun id => g.depths.lookup id) =
      g'.ids.map fun id => g'.depths.lookup id := map_depth?_eq hg hg' h
  simp only [coordinates, hcount, hpairs, hedges, hdepths]

/-- **Every graph that operations make** is placed with one point for each identity, and graphs of
one shape get the same points in the order of their nodes, whatever the settings and the seed, with
levels and without. -/
theorem run_placed_by_shape {start start' : IndexedGraph} (hstart : start.IsStart)
    (hstart' : start'.IsStart) (ops ops' : List Operation) (settings : LayoutSettings)
    (seed : UInt64) (tree expired : Bool) :
    let g := (Operation.run Graph.apply start.plain ops).1
    let g' := (Operation.run Graph.apply start'.plain ops').1
    (layout settings g seed tree expired).map (·.1) = g.ids ∧ g.ids.Nodup ∧
      (g.shape = g'.shape → (layout settings g seed tree expired).map (·.2) =
        (layout settings g' seed tree expired).map (·.2)) := by
  intro g g'
  have hg : g.Sound := hstart.sound.run ops
  have hg' : g'.Sound := hstart'.sound.run ops'
  refine ⟨keys_layout settings g seed tree expired, hg.nodup_ids, fun h => ?_⟩
  rw [points_layout, points_layout, coordinates_eq hg hg' h]

/-- A graph that had one node more, with other identities, kinds and relations, is placed alike. -/
theorem run_placed_by_shape_retained :
    let start := IndexedGraph.placeholder "info" .message "gone"
    let ops : List Operation :=
      [.addNode "a" .function "a" (some 1), .addNode "b" .call "b" (some 2),
       .addNode "c" .call "c" none, .addEdge ⟨1, 2, some .calls⟩, .addEdge ⟨2, 3, some .calls⟩,
       .addEdge ⟨3, 3, none⟩, .retainConnected]
    let ops' : List Operation :=
      [.addNode "x" .other "x" none, .addNode "y" .other "y" none, .addNode "z" .other "z" none,
       .addEdge ⟨0, 1, none⟩, .addEdge ⟨1, 2, none⟩, .addEdge ⟨2, 2, some .flow⟩]
    let g := (Operation.run Graph.apply start.plain ops).1
    let g' := (Operation.run Graph.apply IndexedGraph.empty.plain ops').1
    start.IsStart ∧ IndexedGraph.empty.IsStart ∧ g.ids = [1, 2, 3] ∧ g'.ids = [0, 1, 2] ∧
      g.shape = g'.shape ∧ (layout {} g 7 true false).map (·.2) =
        (layout {} g' 7 true false).map (·.2) := by
  intro start ops ops' g g'
  have hstart : start.IsStart := .placeholder _ _ _
  have hshape : g.shape = g'.shape := by decide +kernel
  obtain ⟨-, -, hsame⟩ := run_placed_by_shape hstart .empty ops ops' {} 7 true false
  exact ⟨hstart, .empty, by decide +kernel, by decide +kernel, hshape, hsame hshape⟩

end Placement

end CodeDiagram
