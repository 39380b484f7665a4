/-
# The shape of an outline

An outline is drawn of some nodes of the document, from the root down (`Outline.build_eq_drawn`).
This file reads off what that graph looks like.  Its nodes are those nodes, numbered in document
order, and its edges lead from each to those directly inside it; so the only root is the root of the
document, the walks from there are the paths through the document (`walk_iff`), and the depth of a
node is the depth it has in the document.
-/
import CodeDiagram.FrontEnd.Python
import CodeDiagram.Proofs.Graph.Distance
import CodeDiagram.Proofs.Outline.Walking
import Mathlib.Data.List.Induction

namespace CodeDiagram.Outline

open Syntax

variable {fe : FrontEnd} {limit labelLength : Nat} {d : Document} {ps : List Place}

/-! ## 1. Edges -/

/-- A place hangs from the one whose path is a step shorter. -/
theorem parentIn_eq_some_iff (h : Rooted d.root ps) {k' : Place} (hk' : k' ∈ ps)
    {i : NodeId} : parentIn ps k'.path = some i ↔
      ∃ (k : Place) (a : Nat), ps[i]? = some k ∧ k'.path = k.path ++ [a] := by
  constructor
  · intro hi
    unfold parentIn at hi
    split at hi
    · cases hi
    · rename_i hne
      obtain ⟨j, m, hj⟩ := h.exists_of_prefix hk' (List.dropLast_prefix k'.path)
      have hj' : (ps.map (·.path))[j]? = some k'.path.dropLast := by
        rw [List.getElem?_map, hj]
        rfl
      obtain ⟨hlt, hget⟩ := List.getElem?_eq_some_iff.mp hj'
      have hij : j = i := by
        rw [← Option.some.inj hi, ← hget, h.nodup.idxOf_getElem]
      exact ⟨⟨_, m⟩, k'.path.getLast hne, hij ▸ hj, (List.dropLast_append_getLast hne).symm⟩
  · rintro ⟨k, a, hk, hp⟩
    have hk₁ : (ps.map (·.path))[i]? = some k.path := by
      rw [List.getElem?_map, hk]
      rfl
    obtain ⟨hlt, hget⟩ := List.getElem?_eq_some_iff.mp hk₁
    rw [parentIn, if_neg (by simp [hp]), hp, List.dropLast_concat, ← hget, h.nodup.idxOf_getElem]

/-- The edges lead from each node to those directly inside. -/
theorem mem_edges_graphOf (h : Rooted d.root ps) {e : Graph.Edge} :
    e ∈ (graphOf fe labelLength d ps).edges ↔
      ∃ (i j : Nat) (k k' : Place) (a : Nat), ps[i]? = some k ∧ ps[j]? = some k' ∧
        k'.path = k.path ++ [a] ∧ e = ⟨i, j, some .contains⟩ := by
  have hmem : e ∈ (graphOf fe labelLength d ps).edges ↔ ∃ (j : Nat) (k' : Place) (i : NodeId),
      ps[j]? = some k' ∧ parentIn ps k'.path = some i ∧ e = ⟨i, j, some .contains⟩ := by
    simp only [graphOf, edgesAt, List.mem_flatten, List.mem_mapIdx]
    constructor
    · rintro ⟨_, ⟨j, hj, rfl⟩, he⟩
      obtain ⟨i, hi, rfl⟩ := List.mem_map.mp he
      exact ⟨j, ps[j], i, List.getElem?_eq_getElem hj, Option.mem_toList.mp hi, rfl⟩
    · rintro ⟨j, k', i, hj, hi, rfl⟩
      obtain ⟨hlt, rfl⟩ := List.getElem?_eq_some_iff.mp hj
      exact ⟨_, ⟨j, hlt, rfl⟩, List.mem_map.mpr ⟨i, Option.mem_toList.mpr hi, rfl⟩⟩
  rw [hmem]
  constructor
  · rintro ⟨j, k', i, hj, hi, rfl⟩
    obtain ⟨k, a, hk, hp⟩ := (parentIn_eq_some_iff h (List.mem_of_getElem? hj)).mp hi
    exact ⟨i, j, k, k', a, hk, hj, hp, rfl⟩
  · rintro ⟨i, j, k, k', a, hk, hj, hp, rfl⟩
    exact ⟨j, k', i, hj, (parentIn_eq_some_iff h (List.mem_of_getElem? hj)).mpr ⟨k, a, hk, hp⟩, rfl⟩

/-- One edge ends at each node but the first. -/
theorem inDegree_graphOf (h : Rooted d.root ps) (hs : (graphOf fe labelLength d ps).Sound)
    {j : Nat} (hpos : 0 < j) (hlt : j < ps.length) :
    (graphOf fe labelLength d ps).inDegree j = 1 := by
  have hj : ps[j]? = some ps[j] := List.getElem?_eq_getElem hlt
  have hne : ps[j].path ≠ [] := by
    intro hnil
    have := h.index_unique hj h.head hnil
    omega
  obtain ⟨i, m, hi⟩ := h.exists_of_prefix (List.getElem_mem hlt) (List.dropLast_prefix ps[j].path)
  have hmem : (⟨i, j, some .contains⟩ : Graph.Edge) ∈ (graphOf fe labelLength d ps).edges :=
    (mem_edges_graphOf h).mpr ⟨i, j, _, _, _, hi, hj, (List.dropLast_append_getLast hne).symm, rfl⟩
  -- any other edge to the node comes from the same place
  have honly : ∀ e ∈ (graphOf fe labelLength d ps).edges,
      (e.target == j) = (e == ⟨i, j, some .contains⟩) := by
    intro e he
    obtain ⟨i', j', k, k', a, hk, hk', hp, rfl⟩ := (mem_edges_graphOf h).mp he
    rw [Bool.eq_iff_iff, beq_iff_eq, beq_iff_eq]
    constructor
    · rintro rfl
      obtain rfl : k' = ps[j'] := Option.some.inj (hk'.symm.trans hj)
      have hsame : k.path = ps[j'].path.dropLast := by rw [hp, List.dropLast_concat]
      rw [h.index_unique hk hi hsame]
    · intro he
      exact congrArg Graph.Edge.target he
  rw [Graph.inDegree, List.countP_congr fun e he => by rw [honly e he]]
  exact List.count_eq_one_of_mem hs.nodup hmem

/-- No edge ends at the first node. -/
theorem roots_graphOf (h : Rooted d.root ps) (hs : (graphOf fe labelLength d ps).Sound) :
    (graphOf fe labelLength d ps).roots = [0] := by
  have htarget : ∀ j, (graphOf fe labelLength d ps).isTarget j = true ↔ 0 < j ∧ j < ps.length := by
    intro j
    rw [Graph.isTarget, List.any_eq_true]
    constructor
    · rintro ⟨e, he, hj⟩
      obtain ⟨i, j, k, k', a, hk, hk', hp, rfl⟩ := (mem_edges_graphOf h).mp he
      rw [beq_iff_eq] at hj
      refine hj ▸ ⟨?_, (List.getElem?_eq_some_iff.mp hk').1⟩
      rcases Nat.eq_zero_or_pos j with rfl | hpos
      · obtain rfl : (⟨[], d.root⟩ : Place) = k' := Option.some.inj (h.head.symm.trans hk')
        simp at hp
      · exact hpos
    · rintro ⟨hpos, hlt⟩
      have hone := inDegree_graphOf h hs hpos hlt
      exact List.countP_pos_iff.mp (by rw [← Graph.inDegree, hone]; exact Nat.one_pos)
  have hlen : 0 < ps.length := (List.getElem?_eq_some_iff.mp h.head).1
  obtain ⟨n, hn⟩ : ∃ n, ps.length = n + 1 := ⟨ps.length - 1, by omega⟩
  rw [Graph.roots, ids_graphOf, hn, List.range_succ_eq_map, List.filter_cons, if_pos,
    List.filter_map]
  · rw [List.filter_eq_nil_iff.mpr, List.map_nil]
    intro j hj
    have : (graphOf fe labelLength d ps).isTarget (j + 1) = true :=
      (htarget (j + 1)).mpr ⟨Nat.succ_pos j, hn ▸ Nat.succ_lt_succ (List.mem_range.mp hj)⟩
    simp [this]
  · rw [Bool.not_eq_true', Bool.eq_false_iff]
    exact fun h0 => Nat.lt_irrefl 0 ((htarget 0).mp h0).1

/-! ## 2. Walks -/

/-- **Walks from the first node are paths through the document.** -/
theorem walk_iff (h : Rooted d.root ps) {i n : Nat} :
    (graphOf fe labelLength d ps).Walk 0 i n ↔
      ∃ k : Place, ps[i]? = some k ∧ k.path.length = n := by
  constructor
  · intro hw
    induction hw with
    | nil => exact ⟨_, h.head, rfl⟩
    | snoc _ hc ih =>
      obtain ⟨k, hk, hn⟩ := ih
      obtain ⟨e, he, rfl, rfl⟩ := Graph.mem_targets.mp hc
      obtain ⟨i, j, l, k', a, hl, hk', hp, rfl⟩ := (mem_edges_graphOf h).mp he
      obtain rfl : l = k := Option.some.inj (hl.symm.trans hk)
      refine ⟨k', hk', ?_⟩
      rw [hp, List.length_append, hn]
      rfl
  · rintro ⟨k, hk, rfl⟩
    obtain ⟨path, node⟩ := k
    -- along the path, from the root on
    induction path using List.reverseRecOn generalizing i node with
    | nil =>
      rw [h.index_unique hk h.head rfl]
      exact .nil 0
    | append_singleton p a ih =>
      obtain ⟨j, m, hj⟩ := h.exists_of_prefix (List.mem_of_getElem? hk) (List.prefix_append p [a])
      have hedge : (⟨j, i, some .contains⟩ : Graph.Edge) ∈ (graphOf fe labelLength d ps).edges :=
        (mem_edges_graphOf h).mpr ⟨j, i, _, _, a, hj, hk, rfl, rfl⟩
      have hlast : i ∈ (graphOf fe labelLength d ps).targets j :=
        Graph.mem_targets.mpr ⟨_, hedge, rfl, rfl⟩
      have hlen : (p ++ [a]).length = p.length + 1 := List.length_append
      rw [hlen]
      exact .snoc (ih m hj) hlast

/-- The depth of a node is the depth of what it stands for. -/
theorem depth?_graphOf (h : Rooted d.root ps) (hs : (graphOf fe labelLength d ps).Sound)
    (i : Nat) : (graphOf fe labelLength d ps).depth? i = ps[i]?.map (·.path.length) := by
  have hfrom : ∀ n, (graphOf fe labelLength d ps).IsFromRoot i n ↔
      ∃ k : Place, ps[i]? = some k ∧ k.path.length = n := by
    intro n
    rw [Graph.IsFromRoot, roots_graphOf h hs]
    constructor
    · rintro ⟨r, hr, hw⟩
      rw [List.mem_singleton.mp hr] at hw
      exact (walk_iff h).mp hw
    · exact fun hk => ⟨0, List.mem_singleton_self 0, (walk_iff h).mpr hk⟩
  cases hi : ps[i]? with
  | none =>
    refine (Graph.depth?_eq_none_iff hs.nodup_ids).mpr fun n hn => ?_
    obtain ⟨k, hk, -⟩ := (hfrom n).mp hn
    rw [hi] at hk
    cases hk
  | some k =>
    refine (Graph.depth?_eq_some_iff hs.nodup_ids).mpr ⟨(hfrom _).mpr ⟨k, hi, rfl⟩, fun m hm => ?_⟩
    obtain ⟨l, hl, rfl⟩ := (hfrom m).mp hm
    exact Nat.le_of_eq (by rw [Option.some.inj (hi.symm.trans hl)])

/-- Something is cut off if a place at the limit has named children. -/
theorem isCut_drawn_of_le (fe : FrontEnd) (labelLength : Nat) (d : Document)
    (hlimit : ∀ k ∈ ps, k.path.length ≤ limit) :
    (drawn fe limit labelLength d ps).isCut = true ↔
      ∃ k ∈ ps, k.path.length = limit ∧ k.node.namedChildren ≠ [] := by
  simp only [drawn, List.any_eq_true, Visit.isCut, visitOf, Bool.and_eq_true, Bool.not_eq_true',
    List.isEmpty_eq_false_iff]
  constructor
  · rintro ⟨k, hk, hle, hne⟩
    exact ⟨k, hk, Nat.le_antisymm (hlimit k hk) (of_decide_eq_true hle), hne⟩
  · rintro ⟨k, hk, he, hne⟩
    exact ⟨k, hk, decide_eq_true (Nat.le_of_eq he.symm), hne⟩

theorem isCut_drawn (fe : FrontEnd) (labelLength : Nat) (h : Listing d.root limit ps) :
    (drawn fe limit labelLength d ps).isCut = true ↔
      ∃ k ∈ ps, k.path.length = limit ∧ k.node.namedChildren ≠ [] :=
  isCut_drawn_of_le fe labelLength d fun k hk => ((h.mem_iff k).mp hk).1

/-! ## 3. The outline of a document -/

/-- An outline is the tree of the listed nodes: the graph has a node for each, in order, and its
edges, roots, walks and depths are those of the tree. -/
structure IsTreeOf (fe : FrontEnd) (limit labelLength : Nat) (d : Document) (ps : List Place)
    (o : Outline) : Prop where
  nodes : o.graph.nodes = ps.mapIdx fun i k =>
    ⟨i, k.node.kind, fe.classify k.node.kind, fe.label labelLength d k.node, some (d.line k.node)⟩
  edges_nodup : o.graph.edges.Nodup
  mem_edges : ∀ e, e ∈ o.graph.edges ↔
    ∃ (i j : Nat) (k k' : Place) (a : Nat), ps[i]? = some k ∧ ps[j]? = some k' ∧
      k'.path = k.path ++ [a] ∧ e = ⟨i, j, some .contains⟩
  roots : o.graph.roots = [0]
  inDegree : ∀ i, 0 < i → i < ps.length → o.graph.inDegree i = 1
  reachable : ∀ i k, ps[i]? = some k → o.graph.Walk 0 i k.path.length
  depth : ∀ i, o.graph.depth? i = ps[i]?.map (·.path.length)
  depth_le : ∀ i n, o.graph.depth? i = some n → n ≤ limit
  total : o.metadata.totalNodes = o.graph.nodeCount ∧ o.graph.nodeCount = ps.length
  cut : o.metadata.maxDepthReached = true ↔
    ∃ k ∈ ps, k.path.length = limit ∧ k.node.namedChildren ≠ []

/-- **The outline that is drawn of places from the root down is their tree.** -/
theorem drawn_isTreeOf (h : Rooted d.root ps) (hlimit : ∀ k ∈ ps, k.path.length ≤ limit)
    (hs : (graphOf fe labelLength d ps).Sound) :
    IsTreeOf fe limit labelLength d ps (drawn fe limit labelLength d ps) where
  nodes := rfl
  edges_nodup := hs.nodup
  mem_edges := fun e => mem_edges_graphOf h
  roots := roots_graphOf h hs
  inDegree := fun i hpos hlt => inDegree_graphOf h hs hpos hlt
  reachable := fun i k hk => (walk_iff h).mpr ⟨k, hk, rfl⟩
  depth := depth?_graphOf h hs
  depth_le := by
    intro i n hn
    obtain ⟨k, hk, rfl⟩ := Option.map_eq_some_iff.mp ((depth?_graphOf h hs i).symm.trans hn)
    exact hlimit k (List.mem_of_getElem? hk)
  total := ⟨rfl, by simp [drawn, graphOf, Graph.nodeCount]⟩
  cut := isCut_drawn_of_le fe labelLength d hlimit

/-- **The outline of a document is the tree of its named nodes down to the limit.** -/
theorem build_isTreeOf (fe : FrontEnd) (limit labelLength : Nat) (d : Document)
    (hd : d.tree.ids.Nodup) :
    ∃ ps, Listing d.root limit ps ∧
      IsTreeOf fe limit labelLength d ps (build fe limit labelLength d) := by
  obtain ⟨ps, h, hs, hbuild⟩ :=
    build_eq_drawn fe limit labelLength (hd.sublist d.root_ids_sublist)
  have hlimit : ∀ k ∈ ps, k.path.length ≤ limit := fun k hk => ((h.mem_iff k).mp hk).1
  exact ⟨ps, h, hbuild ▸ drawn_isTreeOf h.rooted hlimit hs⟩

/-- The text `x = 1` with a limit that cuts the assignment off. -/
theorem build_isTreeOf_assignment :
    let d : Document := {
      language := .python
      text := "x = 1"
      tree := .node { id := 0, kind := "module", start := 0, stop := 5 }
        [.node { id := 1, kind := "expression_statement", start := 0, stop := 5 }
          [.node { id := 2, kind := "assignment", start := 0, stop := 5 }
            [.node { id := 3, kind := "identifier", start := 0, stop := 1 } [],
             .node { id := 4, kind := "=", named := false, start := 2, stop := 3 } [],
             .node { id := 5, kind := "integer", start := 4, stop := 5 } []]]] }
    d.tree.ids.Nodup ∧ ∃ ps, Listing d.root 2 ps ∧
      IsTreeOf Python.frontEnd 2 40 d ps (build Python.frontEnd 2 40 d) :=
  ⟨by decide, build_isTreeOf _ _ _ _ (by decide)⟩

end CodeDiagram.Outline
