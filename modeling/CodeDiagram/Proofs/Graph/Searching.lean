/-
# What tables find

The sets and tables of `Graph/Search.lean` find what a search of the lists finds: the same roots in
the same order, the same degrees and the same depths.  So of every graph that operations make, with
cycles, nodes that no root leads to, loops and several edges between two nodes (`run_isMeasured`):

* the roots are the nodes of degree zero, the degrees are those of just the nodes, and they add up
  to the number of edges;
* the search ends after one turn for each node it finds, and never comes upon a node in the queue
  that has no depth;
* it finds just the nodes that some root leads to, and a depth is the length of a shortest walk.

The search by tables goes along with the one of `Graph.spread`, turn by turn (`Search.Follows`).
What the latter finds is known from `Proofs/Graph/Distance.lean`.
-/
import CodeDiagram.Graph.Search
import CodeDiagram.Proofs.Graph.Distance
import CodeDiagram.Proofs.Graph.Indexing
import Mathlib.Algebra.BigOperators.Group.List.Basic
import Mathlib.Algebra.GroupWithZero.Nat
import Mathlib.Order.Bounds.Basic

namespace CodeDiagram

open CodeDiagram.Graph

namespace Graph

variable {g : Graph}

/-! ## 1. Roots and degrees -/

/-- A node that no edge ends at. -/
def IsSource (g : Graph) (r : NodeId) : Prop := r ∈ g.ids ∧ ∀ e ∈ g.edges, e.target ≠ r

theorem mem_roots {r : NodeId} : r ∈ g.roots ↔ g.IsSource r := by
  simp [roots, isTarget, IsSource]

theorem rootList_eq (g : Graph) : g.rootList = g.roots := by
  refine List.filter_congr fun id _ => ?_
  rw [Std.HashSet.contains_ofList, isTarget, Bool.eq_iff_iff]
  simp

theorem roots_eq_filter (g : Graph) : g.roots = g.ids.filter (g.inDegree · == 0) := by
  refine List.filter_congr fun id _ => ?_
  rw [Bool.eq_iff_iff]
  simp [isTarget, inDegree, List.countP_eq_zero]

theorem sum_map_eq_count (ids : List NodeId) (id : NodeId) :
    (ids.map fun other => if id = other then 1 else 0).sum = ids.count id := by
  induction ids with
  | nil => rfl
  | cons other ids ih =>
    rw [List.map_cons, List.sum_cons, ih, List.count_cons, Nat.add_comm]
    by_cases hid : id = other
    · simp [hid]
    · simp [hid, Ne.symm hid]

/-- An edge counts for one node: its target. -/
theorem sum_countP {ids : List NodeId} (hids : ids.Nodup) {es : List Edge}
    (hes : ∀ e ∈ es, e.target ∈ ids) :
    (ids.map fun id => es.countP (·.target == id)).sum = es.length := by
  induction es with
  | nil => simp
  | cons e es ih =>
    obtain ⟨he, hes⟩ := List.forall_mem_cons.mp hes
    have hone : (ids.map fun id => if e.target = id then 1 else 0).sum = 1 := by
      rw [sum_map_eq_count, List.count_eq_one_of_mem hids he]
    simp only [List.countP_cons, List.sum_map_add, ih hes, List.length_cons, beq_iff_eq, hone]

/-- **Degrees add up to the number of edges.** -/
theorem sum_inDegree (h : g.Sound) : (g.ids.map g.inDegree).sum = g.edgeCount :=
  sum_countP h.nodup_ids fun e he => (h.joined e he).2

theorem map_fst_inDegrees (g : Graph) : g.inDegrees.map (·.1) = g.ids := by
  simp [inDegrees, Function.comp_def]

theorem mem_degreeTable (h : g.Sound) (id : NodeId) : id ∈ g.degreeTable ↔ id ∈ g.ids := by
  rw [degreeTable, mem_foldl_insert Edge.target (fun n _ => n + 1), Std.HashMap.mem_ofList]
  constructor
  · rintro (hid | ⟨e, he, rfl⟩)
    · simpa [Function.comp_def] using hid
    · exact (h.joined e he).2
  · intro hid
    exact Or.inl (by simpa [Function.comp_def] using hid)

/-- **The table of degrees** has just the nodes, each with its degree. -/
theorem getElem?_degreeTable (h : g.Sound) (id : NodeId) :
    g.degreeTable[id]? = if id ∈ g.ids then some (g.inDegree id) else none := by
  have hstart : (Std.HashMap.ofList (g.ids.map (·, 0))).getD id 0 = 0 := by
    have hkeys : ((g.ids.map (·, 0)).map (·.1) : List NodeId).Nodup := by
      simpa [Function.comp_def] using h.nodup_ids
    rw [Std.HashMap.getD_eq_getD_getElem?, getElem?_ofList hkeys, lookup_map_self (fun _ => 0)]
    split <;> rfl
  have hvalue : g.degreeTable.getD id 0 = g.inDegree id := by
    rw [degreeTable, getD_foldl_insert Edge.target (fun n _ => n + 1), hstart, inDegree,
      List.foldl_add_const, List.countP_eq_length_filter, Nat.one_mul, Nat.zero_add]
  split
  · rename_i hid
    rw [Std.HashMap.getElem?_eq_some_getD ((mem_degreeTable h id).mpr hid), hvalue]
  · rename_i hid
    exact Std.HashMap.getElem?_eq_none fun hmem => hid ((mem_degreeTable h id).mp hmem)

theorem toList_degreeTable (h : g.Sound) : g.degreeTable.toList.Perm g.inDegrees := by
  refine toList_perm ((map_fst_inDegrees g).symm ▸ h.nodup_ids) fun id => ?_
  rw [getElem?_degreeTable h, inDegrees, lookup_map_self]

/-! ## 2. Turns of a search -/

/-- The table of children tells where the edges of a node lead. -/
theorem getD_childTable (g : Graph) (id : NodeId) : g.childTable.getD id [] = g.targets id := by
  rw [childTable, getD_foldl_insert Edge.source (fun ids e => ids ++ [e.target]),
    Std.HashMap.getD_empty, List.foldl_append_eq_append, ← List.flatMap_def,
    ← List.map_eq_flatMap, List.nil_append, targets]

/-- The nodes of a list that have no depth yet, each once, at a depth. -/
def fresh (found : List (NodeId × Nat)) (ids : List NodeId) (depth : Nat) : List (NodeId × Nat) :=
  (ids.filter (!isFound found ·)).eraseDups.map (·, depth)

theorem fresh_cons_of_isFound {found : List (NodeId × Nat)} {id : NodeId}
    (h : isFound found id = true) (ids : List NodeId) (depth : Nat) :
    fresh found (id :: ids) depth = fresh found ids depth := by
  simp [fresh, h]

theorem fresh_cons_of_not_isFound {found : List (NodeId × Nat)} {id : NodeId}
    (h : isFound found id = false) (ids : List NodeId) (depth : Nat) :
    fresh found (id :: ids) depth = (id, depth) :: fresh (found ++ [(id, depth)]) ids depth := by
  have hrest : (ids.filter (!isFound found ·)).filter (fun b => !b == id) =
      ids.filter (!isFound (found ++ [(id, depth)]) ·) := by
    rw [List.filter_filter]
    refine List.filter_congr fun other _ => ?_
    rw [isFound_append]
    simp [isFound, Bool.beq_comm, Bool.and_comm]
  rw [fresh, List.filter_cons_of_pos (by simp [h]), List.eraseDups_cons, hrest]
  rfl

theorem isFound_eq_false {found : List (NodeId × Nat)} {id : NodeId} :
    isFound found id = false ↔ found.lookup id = none := by
  rw [← Bool.not_eq_true, isFound_eq_true, ← lookup_isSome_iff_mem, Option.not_isSome_iff_eq_none]

namespace Search

/-- A search by tables and one by lists have come equally far. -/
structure Follows (s : Search) (found queue : List (NodeId × Nat)) : Prop where
  depths : ∀ id, s.depths[id]? = found.lookup id
  waits : s.queue = queue.map (·.1)
  placed : ∀ x ∈ queue, found.lookup x.1 = some x.2

namespace Follows

variable {s : Search} {found queue : List (NodeId × Nat)}

theorem contains_depths (h : s.Follows found queue) (id : NodeId) :
    s.depths.contains id = isFound found id := by
  rw [Bool.eq_iff_iff, isFound_eq_true, ← lookup_isSome_iff_mem, ← h.depths,
    Std.HashMap.contains_eq_isSome_getElem?]

/-- A node that is new comes to both queues. -/
theorem enter (h : s.Follows found queue) {id : NodeId} (hnew : isFound found id = false)
    (depth : Nat) :
    (s.enter depth id).Follows (found ++ [(id, depth)]) (queue ++ [(id, depth)]) where
  depths := by
    intro other
    rw [lookup_concat_of_eq_none (isFound_eq_false.mp hnew), Search.enter,
      Std.HashMap.getElem?_insert, List.lookup_cons, h.depths]
    by_cases hid : id = other
    · simp [hid]
    · have hne : (other == id) = false := by simpa using Ne.symm hid
      simp [hid, hne]
  waits := by simp [Search.enter, h.waits]
  placed := by
    intro x hx
    rw [List.lookup_append]
    rcases List.mem_append.mp hx with hx | hx
    · simp [h.placed x hx]
    · obtain rfl := List.mem_singleton.mp hx
      simp [isFound_eq_false.mp hnew]

/-- The edges of a node lead both searches to the same new nodes. -/
theorem foldl_reach (ids : List NodeId) (depth : Nat) (h : s.Follows found queue) :
    (ids.foldl (reach depth) s).Follows (found ++ fresh found ids depth)
      (queue ++ fresh found ids depth) := by
  induction ids generalizing s found queue with
  | nil => simpa [fresh] using h
  | cons id ids ih =>
    rw [List.foldl_cons, reach, h.contains_depths]
    cases hfound : isFound found id with
    | true =>
      rw [fresh_cons_of_isFound hfound]
      exact ih h
    | false =>
      rw [fresh_cons_of_not_isFound hfound, if_neg Bool.false_ne_true]
      simpa using ih (h.enter hfound depth)

theorem foldl_enter {ids : List NodeId} (hids : ids.Nodup) (depth : Nat)
    (hnew : ∀ id ∈ ids, isFound found id = false) (h : s.Follows found queue) :
    (ids.foldl (Search.enter depth) s).Follows (found ++ ids.map (·, depth))
      (queue ++ ids.map (·, depth)) := by
  induction ids generalizing s found queue with
  | nil => simpa using h
  | cons id ids ih =>
    obtain ⟨hid, hids⟩ := List.nodup_cons.mp hids
    obtain ⟨hfirst, hnew⟩ := List.forall_mem_cons.mp hnew
    have hrest : ∀ other ∈ ids, isFound (found ++ [(id, depth)]) other = false := by
      intro other hother
      have hne : id ≠ other := fun he => hid (he ▸ hother)
      rw [isFound_append, hnew other hother]
      simp [isFound, hne]
    simpa using ih hids hrest (h.enter hfirst depth)

/-- Both searches start with the roots. -/
theorem start {roots : List NodeId} (hroots : roots.Nodup) :
    (Search.start roots).Follows (roots.map (·, 0)) (roots.map (·, 0)) := by
  have hnone : ({} : Search).Follows [] [] := ⟨fun id => by simp, rfl, by simp⟩
  exact foldl_enter hroots 0 (fun id _ => rfl) hnone

/-- **A turn** of the search by tables does what one of the search by lists does. -/
theorem turn {id : NodeId} {depth : Nat} (h : s.Follows found ((id, depth) :: queue)) :
    ∃ s', s.turn g.childTable = some s' ∧
      s'.Follows (found ++ g.discovered found id (depth + 1))
        (queue ++ g.discovered found id (depth + 1)) := by
  have hdepth : s.depths[id]? = some depth := by
    rw [h.depths]
    exact h.placed (id, depth) List.mem_cons_self
  have hrest : ({ s with queue := queue.map (·.1) } : Search).Follows found queue :=
    ⟨h.depths, rfl, fun x hx => h.placed x (List.mem_cons_of_mem _ hx)⟩
  refine ⟨s.follow g.childTable id depth (queue.map (·.1)), ?_, ?_⟩
  · rw [Search.turn, h.waits]
    simp [hdepth]
  · rw [Search.follow, getD_childTable]
    exact hrest.foldl_reach (g.targets id) (depth + 1)

/-- **The run**: the search by tables ends when the one by lists does, and has found the same. -/
theorem run (h : s.Follows found queue) : ∃ table n, s.run g.childTable = some table ∧
    s.after g.childTable n = some ⟨table, []⟩ ∧
    n + found.length = (g.spread found queue).length + queue.length ∧
    ∀ id, table[id]? = (g.spread found queue).lookup id := by
  induction found, queue using Graph.spread.induct g generalizing s with
  | case1 found =>
    have hqueue : s.queue = [] := h.waits
    refine ⟨s.depths, 0, run_of_nil hqueue, ?_, ?_, ?_⟩
    · rw [after, ← hqueue]
    · rw [Graph.spread, List.length_nil, Nat.zero_add, Nat.add_zero]
    · rw [Graph.spread]
      exact h.depths
  | case2 found id depth queue _ ih =>
    obtain ⟨s', hturn, hs'⟩ := h.turn (g := g)
    obtain ⟨table, n, hrun, hafter, hturns, hlookup⟩ := ih hs'
    rw [Graph.spread]
    refine ⟨table, n + 1, ?_, ?_, ?_, hlookup⟩
    · rw [run_of_cons h.waits, hturn]
      exact hrun
    · rw [after, hturn]
      exact hafter
    · simp only [List.length_append, List.length_cons] at hturns ⊢
      omega

end Follows

end Search

/-! ## 3. What the search finds -/

/-- **Depths by tables**: the search ends, and has found the same as the one by lists. -/
theorem depthTable?_eq (h : g.Sound) : ∃ table, g.depthTable? = some table ∧
    table.toList.Perm g.depths ∧
    (Search.start g.rootList).after g.childTable table.size = some ⟨table, []⟩ := by
  obtain ⟨table, n, hrun, hafter, hturns, hlookup⟩ :=
    (Search.Follows.start (nodup_ids_of_roots h.nodup_ids).2).run (g := g)
  have hperm : table.toList.Perm g.depths := toList_perm (nodup_depths h.nodup_ids) hlookup
  have hsize : n = table.size := by
    rw [← Std.HashMap.length_toList, hperm.length_eq, depths]
    omega
  rw [← rootList_eq] at hrun hafter
  exact ⟨table, hrun, hperm, hsize ▸ hafter⟩

theorem isFromRoot_iff {id : NodeId} {n : Nat} :
    g.IsFromRoot id n ↔ ∃ r, g.IsSource r ∧ g.Walk r id n :=
  exists_congr fun _ => and_congr_left fun _ => mem_roots

/-- A walk from a node of a sound graph does not leave it. -/
theorem Walk.mem_ids {r id : NodeId} {n : Nat} (h : g.Sound) (hr : r ∈ g.ids)
    (hw : g.Walk r id n) : id ∈ g.ids := by
  cases hw with
  | nil => exact hr
  | snoc _ ht =>
    obtain ⟨e, he, -, rfl⟩ := mem_targets.mp ht
    exact (h.joined e he).2

/-- The depths are those of nodes. -/
theorem length_depths_le (h : g.Sound) : g.depths.length ≤ g.nodeCount := by
  have hsub : g.depths.map (·.1) ⊆ g.ids := by
    intro id hid
    obtain ⟨⟨_, n⟩, hx, rfl⟩ := List.mem_map.mp hid
    obtain ⟨r, hr, hw⟩ := (searchState_depths h.nodup_ids).sound _ (by simpa using hx)
    exact hw.mem_ids h (mem_roots.mp hr).1
  simpa [length_ids] using (nodup_depths h.nodup_ids).length_le_of_subset hsub

/-- How a graph is measured: what is told of its roots, degrees and depths. -/
structure IsMeasured (g : Graph) : Prop where
  /-- The roots are the nodes that no edge ends at, in order. -/
  roots : g.rootList = g.ids.filter fun id => g.degreeTable[id]? == some 0
  mem_roots : ∀ r, r ∈ g.rootList ↔ g.IsSource r
  /-- The nodes have degrees, and nothing else has. -/
  keys : g.degreeTable.keys.Perm g.ids
  degree : ∀ id ∈ g.ids, g.degreeTable[id]? = some (g.edges.countP (·.target == id))
  degree_sum : (g.degreeTable.toList.map (·.2)).sum = g.edgeCount
  /-- The search ends, with one turn for each node that it finds: those that a root leads to, each
  at its distance. -/
  depths : ∃ table, g.depthTable? = some table ∧ table.size ≤ g.nodeCount ∧
    (Search.start g.rootList).after g.childTable table.size = some ⟨table, []⟩ ∧
    (∀ id, id ∈ table ↔ ∃ r n, g.IsSource r ∧ g.Walk r id n) ∧
    (∀ id n, table[id]? = some n ↔ IsLeast {m | ∃ r, g.IsSource r ∧ g.Walk r id m} n) ∧
    table.toList.Perm g.depths

/-- **A sound graph is measured.** -/
theorem Sound.isMeasured (h : g.Sound) : g.IsMeasured where
  roots := by
    rw [rootList_eq, roots_eq_filter]
    refine List.filter_congr fun id hid => ?_
    rw [getElem?_degreeTable h, if_pos hid]
    rfl
  mem_roots := by
    intro r
    rw [rootList_eq, Graph.mem_roots]
  keys := by
    rw [← Std.HashMap.map_fst_toList_eq_keys, ← map_fst_inDegrees]
    exact (toList_degreeTable h).map _
  degree := by
    intro id hid
    rw [getElem?_degreeTable h, if_pos hid]
    rfl
  degree_sum := by
    have hvalues : (g.degreeTable.toList.map (·.2)).Perm (g.ids.map g.inDegree) := by
      simpa [inDegrees, Function.comp_def] using (toList_degreeTable h).map (·.2)
    rw [hvalues.sum_eq, sum_inDegree h]
  depths := by
    obtain ⟨table, htable, hperm, hafter⟩ := depthTable?_eq h
    have hentry : ∀ id n, table[id]? = some n ↔ g.depth? id = some n := by
      intro id n
      rw [← Std.HashMap.mem_toList_iff_getElem?_eq_some, hperm.mem_iff, depth?,
        lookup_eq_some_iff_mem (nodup_depths h.nodup_ids)]
    refine ⟨table, htable, ?_, hafter, fun id => ?_, fun id n => ?_, hperm⟩
    · rw [← Std.HashMap.length_toList, hperm.length_eq]
      exact length_depths_le h
    · rw [Std.HashMap.mem_iff_isSome_getElem?, Option.isSome_iff_exists]
      simp only [hentry]
      constructor
      · rintro ⟨n, hn⟩
        obtain ⟨r, hr, hw⟩ := ((depth?_eq_some_iff h.nodup_ids).mp hn).1
        exact ⟨r, n, Graph.mem_roots.mp hr, hw⟩
      · rintro ⟨r, n, hr, hw⟩
        refine Option.ne_none_iff_exists'.mp fun hnone => ?_
        exact (depth?_eq_none_iff h.nodup_ids).mp hnone n ⟨r, Graph.mem_roots.mpr hr, hw⟩
    · rw [hentry, depth?_eq_some_iff h.nodup_ids]
      simp only [isFromRoot_iff]
      rfl

end Graph

namespace IndexedGraph

/-- **Runs**: every graph that operations make of a new one is measured, and while there are
identities left it is the graph that the same operations make with an index. -/
theorem run_isMeasured {start : IndexedGraph} (hstart : start.IsStart) (ops : List Operation) :
    (Operation.run Graph.apply start.plain ops).1.IsMeasured ∧
      (start.nextId + additions ops < idCount →
        (Operation.run IndexedGraph.apply start ops).1.plain =
          (Operation.run Graph.apply start.plain ops).1) := by
  refine ⟨(hstart.sound.run ops).isMeasured, fun hroom => ?_⟩
  rw [(run_isFaithful hstart ops hroom).plain]

/-- Two edges to one node, a loop, and two nodes that only lead to each other: those have degrees
and no depth. -/
theorem run_isMeasured_loops :
    let start := placeholder "info" .other "root"
    let ops : List Operation :=
      [.addNode "a" .other "a" none, .addNode "b" .other "b" none, .addNode "c" .other "c" none,
       .addNode "d" .other "d" none, .addEdge ⟨0, 1, some .calls⟩, .addEdge ⟨0, 1, some .flow⟩,
       .addEdge ⟨1, 1, none⟩, .addEdge ⟨1, 2, none⟩, .addEdge ⟨0, 2, none⟩, .addEdge ⟨3, 4, none⟩,
       .addEdge ⟨4, 3, none⟩]
    let g := (Operation.run Graph.apply start.plain ops).1
    start.IsStart ∧ start.nextId + additions ops < idCount ∧ g.IsMeasured ∧
      (Operation.run IndexedGraph.apply start ops).1.plain = g ∧ g.rootList = [0] ∧
      g.inDegrees = [(0, 0), (1, 3), (2, 2), (3, 1), (4, 1)] ∧
      g.depths = [(0, 0), (1, 1), (2, 1)] := by
  intro start ops g
  have hstart : start.IsStart := .placeholder _ _ _
  have hroom : start.nextId + additions ops < idCount := by decide +kernel
  obtain ⟨hmeasured, hplain⟩ := run_isMeasured hstart ops
  refine ⟨hstart, hroom, hmeasured, hplain hroom, ?_, by decide +kernel, by decide +kernel⟩
  rw [Graph.rootList_eq]
  decide +kernel

end IndexedGraph

end CodeDiagram
