/-
# Sound graphs

A graph is sound if the identities of its nodes ascend and are all given, its edges are different
and join nodes that are there.  The empty graph is sound, and so is every graph that operations
make of a sound one.
-/
import CodeDiagram.Graph.Basic
import Mathlib.Data.List.Nodup

namespace CodeDiagram.Graph

/-! ## 1. Nodes of a kind -/

/-- The nodes of a kind, in order. -/
def nodesOf (g : Graph) (kind : NodeKind) : List Vertex := g.nodes.filter (·.kind == kind)

theorem mem_nodesOf {g : Graph} {kind : NodeKind} {v : Vertex} :
    v ∈ g.nodesOf kind ↔ v ∈ g.nodes ∧ v.kind = kind := by
  rw [nodesOf, List.mem_filter, beq_iff_eq]

theorem nodesOf_addNode (g : Graph) (type : String) (kind : NodeKind) (label : String)
    (line : Option Nat) (k : NodeKind) : (g.addNode type kind label line).1.nodesOf k =
      g.nodesOf k ++ if kind = k then [⟨g.nextId, type, kind, label, line⟩] else [] := by
  rw [nodesOf, nodes_addNode, List.filter_append, nodesOf]
  by_cases hk : kind = k
  · simp [hk]
  · simp [hk]

@[simp] theorem nodesOf_addEdge (g : Graph) (e : Edge) (k : NodeKind) :
    (g.addEdge e).nodesOf k = g.nodesOf k := by
  rw [nodesOf, nodes_addEdge, nodesOf]

/-! ## 2. Nodes that edges touch -/

theorem touches_iff {g : Graph} {id : NodeId} :
    g.touches id = true ↔ ∃ e ∈ g.edges, e.source = id ∨ e.target = id := by
  simp [touches]

theorem ids_retainConnected (g : Graph) : g.retainConnected.ids = g.ids.filter g.touches := by
  rw [ids, ids, retainConnected, List.filter_map]
  rfl

theorem mem_ids_retainConnected {g : Graph} {id : NodeId} :
    id ∈ g.retainConnected.ids ↔ id ∈ g.ids ∧ g.touches id = true := by
  rw [ids_retainConnected, List.mem_filter]

theorem nodesOf_retainConnected (g : Graph) (kind : NodeKind) :
    g.retainConnected.nodesOf kind = (g.nodesOf kind).filter fun v => g.touches v.id := by
  rw [nodesOf, retainConnected, List.filter_filter, nodesOf, List.filter_filter]
  simp only [Bool.and_comm]

/-- No node is removed where each has an edge. -/
theorem retainConnected_eq_self {g : Graph}
    (h : ∀ v ∈ g.nodes, ∃ e ∈ g.edges, e.source = v.id ∨ e.target = v.id) :
    g.retainConnected = g := by
  have hnodes : g.nodes.filter (fun v => g.touches v.id) = g.nodes :=
    List.filter_eq_self.mpr fun v hv => touches_iff.mpr (h v hv)
  rw [retainConnected, hnodes]

/-! ## 3. Places -/

theorem length_ids (g : Graph) : g.ids.length = g.nodeCount := List.length_map _

/-- If identities are different, a search finds a node just where it stands. -/
theorem indexOf?_eq_some_iff {g : Graph} (h : g.ids.Nodup) {id : NodeId} {i : Nat} :
    g.indexOf? id = some i ↔ g.ids[i]? = some id := by
  have hids : g.indexOf? id = g.ids.findIdx? (· == id) := by
    rw [ids, List.findIdx?_map]
    rfl
  rw [hids, List.findIdx?_eq_some_iff_getElem, List.getElem?_eq_some_iff]
  constructor
  · rintro ⟨hi, hplace, -⟩
    exact ⟨hi, beq_iff_eq.mp hplace⟩
  · rintro ⟨hi, rfl⟩
    refine ⟨hi, beq_self_eq_true _, fun j hj hsame => ?_⟩
    exact Nat.ne_of_lt hj (h.getElem_inj_iff.mp (beq_iff_eq.mp hsame))

/-! ## 4. Soundness -/

/-- What every graph keeps that grows from the empty one. -/
structure Sound (g : Graph) : Prop where
  ascending : g.ids.Pairwise (· < ·)
  given : ∀ id ∈ g.ids, id < g.nextId
  nodup : g.edges.Nodup
  joined : ∀ e ∈ g.edges, e.source ∈ g.ids ∧ e.target ∈ g.ids

namespace Sound

variable {g : Graph}

theorem empty : Graph.empty.Sound where
  ascending := List.Pairwise.nil
  given := by simp [Graph.empty, ids]
  nodup := List.nodup_nil
  joined := by simp [Graph.empty]

theorem nodup_ids (h : g.Sound) : g.ids.Nodup := h.ascending.imp Nat.ne_of_lt

/-- The identity that the next node gets is new. -/
theorem nextId_notMem (h : g.Sound) : g.nextId ∉ g.ids :=
  fun hmem => Nat.lt_irrefl _ (h.given _ hmem)

/-- Nodes of one identity are the same. -/
theorem eq_of_id_eq (h : g.Sound) {v w : Vertex} (hv : v ∈ g.nodes) (hw : w ∈ g.nodes)
    (he : v.id = w.id) : v = w :=
  List.inj_on_of_nodup_map h.nodup_ids hv hw he

theorem addNode (h : g.Sound) (type : String) (kind : NodeKind) (label : String)
    (line : Option Nat) : (g.addNode type kind label line).1.Sound where
  ascending := by
    rw [ids_addNode]
    refine List.pairwise_append.mpr ⟨h.ascending, List.pairwise_singleton _ _, ?_⟩
    intro a ha b hb
    rw [List.mem_singleton.mp hb]
    exact h.given a ha
  given := by
    intro id hid
    rw [ids_addNode] at hid
    rw [nextId_addNode]
    rcases List.mem_append.mp hid with hid | hid
    · exact Nat.lt_succ_of_lt (h.given id hid)
    · rw [List.mem_singleton.mp hid]
      exact Nat.lt_succ_self _
  nodup := h.nodup
  joined := by
    intro e he
    rw [ids_addNode]
    exact ⟨List.mem_append_left _ (h.joined e he).1, List.mem_append_left _ (h.joined e he).2⟩

theorem addEdge (h : g.Sound) (e : Edge) : (g.addEdge e).Sound := by
  cases hadm : g.admits e with
  | false => simpa [Graph.addEdge, hadm] using h
  | true =>
    obtain ⟨hs, ht, hnew⟩ := admits_eq_true.mp hadm
    have hedges := edges_addEdge_of_admits hadm
    refine ⟨by rw [ids_addEdge]; exact h.ascending, ?_, ?_, ?_⟩
    · rw [ids_addEdge, nextId_addEdge]
      exact h.given
    · rw [hedges, ← List.concat_eq_append]
      exact h.nodup.concat hnew
    · rw [hedges, ids_addEdge]
      intro f hf
      rcases List.mem_append.mp hf with hf | hf
      · exact h.joined f hf
      · rw [List.mem_singleton.mp hf]
        exact ⟨hs, ht⟩

/-- An edge to a node that was just added is admitted. -/
theorem edges_addNode_addEdge (h : g.Sound) {source : NodeId} (hs : source ∈ g.ids)
    (type : String) (kind : NodeKind) (label : String) (line : Option Nat)
    (relation : Option Relation) :
    ((g.addNode type kind label line).1.addEdge ⟨source, g.nextId, relation⟩).edges =
      g.edges ++ [⟨source, g.nextId, relation⟩] := by
  refine edges_addEdge_of_admits (admits_eq_true.mpr ⟨?_, ?_, ?_⟩)
  · rw [ids_addNode]
    exact List.mem_append_left _ hs
  · rw [ids_addNode]
    exact List.mem_append_right _ List.mem_cons_self
  · exact fun hmem => h.nextId_notMem (h.joined _ hmem).2

end Sound

end CodeDiagram.Graph
