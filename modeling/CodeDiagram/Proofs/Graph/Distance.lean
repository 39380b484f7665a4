/-
# Depths are distances

The search of `Graph.depths` keeps a queue of nodes, the nearest ones first.  This file proves that
what it finds is right: a node gets a depth exactly when a walk leads to it from a root, and the
depth is the length of a shortest such walk (`depth?_eq_some_iff`).

The argument is the invariant `SearchState` of a turn:

* the nodes found are those taken from the queue, in order, and then the queue itself;
* depths grow along that list and, past the head of the queue, by one at most;
* all targets of a node that was taken from the queue are found, at most one deeper.

Once the queue is empty the last point says that no walk from a root is shorter than the depth of
its last node.
-/
import CodeDiagram.Graph.Depth
import CodeDiagram.Proofs.Table

namespace CodeDiagram.Graph

/-! ## 1. Walks -/

/-- A walk along edges from a node to a node, with its length. -/
inductive Walk (g : Graph) : NodeId → NodeId → Nat → Prop
  | nil (a : NodeId) : Walk g a a 0
  | snoc {a b c : NodeId} {n : Nat} : Walk g a b n → c ∈ g.targets b → Walk g a c (n + 1)

theorem mem_targets {g : Graph} {a b : NodeId} :
    b ∈ g.targets a ↔ ∃ e ∈ g.edges, e.source = a ∧ e.target = b := by
  simp [targets, and_assoc]

/-- Walks go along with nodes that are named anew, if what they lead to does. -/
theorem Walk.map {g g' : Graph} {f : NodeId → NodeId} {a b : NodeId} {n : Nat}
    (hf : ∀ a, ∀ b ∈ g.targets a, f b ∈ g'.targets (f a)) (hw : g.Walk a b n) :
    g'.Walk (f a) (f b) n := by
  induction hw with
  | nil => exact .nil _
  | snoc _ ht ih => exact ih.snoc (hf _ _ ht)

/-- `n` is the length of a walk from some root. -/
def IsFromRoot (g : Graph) (id : NodeId) (n : Nat) : Prop := ∃ r ∈ g.roots, g.Walk r id n

/-! ## 2. One turn of the search -/

/-- What holds before and after each turn of the search, with the nodes that were taken from the
queue so far. -/
structure SearchState (g : Graph) (taken queue : List (NodeId × Nat)) : Prop where
  nodup : ((taken ++ queue).map (·.1)).Nodup
  sound : ∀ x ∈ taken ++ queue, g.IsFromRoot x.1 x.2
  roots : ∀ r ∈ g.roots, (r, 0) ∈ taken ++ queue
  closed : ∀ x ∈ taken, ∀ t ∈ g.targets x.1, ∃ k ≤ x.2 + 1, (t, k) ∈ taken ++ queue
  sorted : (taken ++ queue).Pairwise (·.2 ≤ ·.2)
  near : ∀ x ∈ queue.head?, ∀ y ∈ taken ++ queue, y.2 ≤ x.2 + 1

theorem nodup_ids_of_roots {g : Graph} (h : g.ids.Nodup) : (g.roots.map (·, 0)).map
    (fun x : NodeId × Nat => x.1) = g.roots ∧ g.roots.Nodup := by
  refine ⟨?_, h.filter _⟩
  simp [Function.comp_def]

/-- The search starts with the roots. -/
theorem searchState_roots {g : Graph} (h : g.ids.Nodup) :
    g.SearchState [] (g.roots.map (·, 0)) where
  nodup := by
    rw [List.nil_append, (nodup_ids_of_roots h).1]
    exact (nodup_ids_of_roots h).2
  sound := by
    intro x hx
    obtain ⟨r, hr, rfl⟩ := List.mem_map.mp hx
    exact ⟨r, hr, .nil r⟩
  roots := fun r hr => List.mem_map_of_mem hr
  closed := by simp
  sorted := List.pairwise_map.mpr (List.pairwise_of_forall fun _ _ => Nat.le_refl _)
  near := by
    intro x hx y hy
    obtain ⟨r, -, rfl⟩ := List.mem_map.mp hy
    exact Nat.zero_le _

/-- **A turn keeps the state.**  The head of the queue goes to the nodes taken, and what it leads to
goes to the end of the queue. -/
theorem SearchState.turn {g : Graph} {taken queue : List (NodeId × Nat)} {id : NodeId}
    {depth : Nat} (h : g.SearchState taken ((id, depth) :: queue)) :
    g.SearchState (taken ++ [(id, depth)])
      (queue ++ g.discovered (taken ++ (id, depth) :: queue) id (depth + 1)) := by
  obtain ⟨nodup, sound, roots, closed, sorted, near⟩ := h
  generalize hfound : taken ++ (id, depth) :: queue = found at *
  have happ : taken ++ [(id, depth)] ++ (queue ++ g.discovered found id (depth + 1)) =
      found ++ g.discovered found id (depth + 1) := by
    rw [← hfound]
    simp
  have hhead : (id, depth) ∈ found := by simp [← hfound]
  have hnear : ∀ y ∈ found, y.2 ≤ depth + 1 := near (id, depth) rfl
  have hfresh : ∀ y ∈ g.discovered found id (depth + 1), y.2 = depth + 1 :=
    fun y hy => (mem_discovered.mp hy).2.2
  have hqueue : ∀ y ∈ queue, depth ≤ y.2 := by
    intro y hy
    have := (List.pairwise_append.mp (hfound ▸ sorted)).2.1
    exact (List.pairwise_cons.mp this).1 y hy
  refine ⟨?_, ?_, ?_, ?_, ?_, ?_⟩ <;> rw [happ]
  · rw [List.map_append]
    refine List.nodup_append.mpr ⟨nodup, ?_, ?_⟩
    · simpa [discovered, Function.comp_def] using nodup_eraseDups _
    · rintro a ha b hb rfl
      obtain ⟨⟨t, k⟩, ht, rfl⟩ := List.mem_map.mp hb
      have hnew := (mem_discovered.mp ht).2.1
      rw [isFound_eq_true.mpr ha] at hnew
      exact absurd hnew (by simp)
  · intro x hx
    rcases List.mem_append.mp hx with hx | hx
    · exact sound x hx
    · obtain ⟨ht, -, hk⟩ := mem_discovered.mp hx
      obtain ⟨r, hr, hw⟩ := sound _ hhead
      rw [hk]
      exact ⟨r, hr, hw.snoc ht⟩
  · exact fun r hr => List.mem_append_left _ (roots r hr)
  · intro x hx t ht
    rcases List.mem_append.mp hx with hx | hx
    · obtain ⟨k, hk, hmem⟩ := closed x hx t ht
      exact ⟨k, hk, List.mem_append_left _ hmem⟩
    · obtain rfl := List.mem_singleton.mp hx
      cases hf : isFound found t with
      | true =>
        obtain ⟨⟨_, k⟩, hmem, rfl⟩ := List.mem_map.mp (isFound_eq_true.mp hf)
        exact ⟨k, hnear _ hmem, List.mem_append_left _ hmem⟩
      | false =>
        exact ⟨depth + 1, Nat.le_refl _,
          List.mem_append_right _ (mem_discovered.mpr ⟨ht, hf, rfl⟩)⟩
  · refine List.pairwise_append.mpr ⟨sorted, ?_, ?_⟩
    · refine List.pairwise_map.mpr (List.pairwise_of_forall fun _ _ => Nat.le_refl _)
    · intro a ha b hb
      rw [hfresh b hb]
      exact hnear a ha
  · -- the new head is no nearer than the old one
    intro x hx y hy
    have hxd : depth ≤ x.2 := by
      rcases List.mem_append.mp (List.mem_of_head? hx) with hx | hx
      · exact hqueue x hx
      · rw [hfresh x hx]
        omega
    have hyd : y.2 ≤ depth + 1 := by
      rcases List.mem_append.mp hy with hy | hy
      · exact hnear y hy
      · exact Nat.le_of_eq (hfresh y hy)
    omega

/-- The search ends with an empty queue. -/
theorem SearchState.spread {g : Graph} {taken queue : List (NodeId × Nat)}
    (h : g.SearchState taken queue) :
    g.SearchState (g.spread (taken ++ queue) queue) [] := by
  generalize hfound : taken ++ queue = found
  induction found, queue using Graph.spread.induct g generalizing taken with
  | case1 found =>
    rw [Graph.spread, ← hfound, List.append_nil]
    exact h
  | case2 found id depth queue _ ih =>
    rw [Graph.spread]
    have hturn := h.turn
    rw [hfound] at hturn
    refine ih hturn ?_
    rw [List.append_assoc, List.singleton_append, ← List.cons_append, ← List.append_assoc, hfound]

/-! ## 3. What the search finds -/

/-- Once the queue is empty no walk from a root is shorter than the depth found. -/
theorem SearchState.le_of_walk {g : Graph} {found : List (NodeId × Nat)}
    (h : g.SearchState found []) {r id : NodeId} {n : Nat} (hr : r ∈ g.roots)
    (hw : g.Walk r id n) : ∃ k ≤ n, (id, k) ∈ found := by
  induction hw with
  | nil => exact ⟨0, Nat.le_refl _, by simpa using h.roots r hr⟩
  | @snoc b c n _ hc ih =>
    obtain ⟨k, hk, hmem⟩ := ih
    obtain ⟨m, hm, hmem'⟩ := h.closed _ hmem c hc
    exact ⟨m, by omega, by simpa using hmem'⟩

/-- What the search ends with. -/
theorem searchState_depths {g : Graph} (hg : g.ids.Nodup) : g.SearchState g.depths [] :=
  (searchState_roots hg).spread

/-- A node has one depth at most. -/
theorem nodup_depths {g : Graph} (hg : g.ids.Nodup) : (g.depths.map (·.1)).Nodup := by
  simpa using (searchState_depths hg).nodup

/-- **Depths are distances.**  A node has a depth exactly if a walk leads to it from a root, and
then the depth is the length of a shortest one. -/
theorem depth?_eq_some_iff {g : Graph} (hg : g.ids.Nodup) {id : NodeId} {n : Nat} :
    g.depth? id = some n ↔ g.IsFromRoot id n ∧ ∀ m, g.IsFromRoot id m → n ≤ m := by
  have h := searchState_depths hg
  have hnodup := nodup_depths hg
  rw [depth?, lookup_eq_some_iff_mem hnodup]
  have hmin : (id, n) ∈ g.depths → ∀ m, g.IsFromRoot id m → n ≤ m := by
    rintro hn m ⟨r, hr, hw⟩
    obtain ⟨k, hk, hmem⟩ := h.le_of_walk hr hw
    have hkn : some k = some n := ((lookup_eq_some_iff_mem hnodup).mpr hmem).symm.trans
      ((lookup_eq_some_iff_mem hnodup).mpr hn)
    exact Option.some.inj hkn ▸ hk
  constructor
  · intro hn
    exact ⟨h.sound (id, n) (by simpa using hn), hmin hn⟩
  · rintro ⟨⟨r, hr, hw⟩, hleast⟩
    obtain ⟨k, hk, hmem⟩ := h.le_of_walk hr hw
    have hnk : n ≤ k := hleast k (h.sound (id, k) (by simpa using hmem))
    rwa [Nat.le_antisymm hk hnk] at hmem

/-- A node that no root leads to has no depth. -/
theorem depth?_eq_none_iff {g : Graph} (hg : g.ids.Nodup) {id : NodeId} :
    g.depth? id = none ↔ ∀ n, ¬ g.IsFromRoot id n := by
  constructor
  · rintro hnone n ⟨r, hr, hw⟩
    obtain ⟨k, -, hmem⟩ := (searchState_depths hg).le_of_walk hr hw
    rw [depth?, (lookup_eq_some_iff_mem (nodup_depths hg)).mpr hmem] at hnone
    exact absurd hnone (by simp)
  · intro hno
    cases hd : g.depth? id with
    | none => rfl
    | some n => exact absurd ((depth?_eq_some_iff hg).mp hd).1 (hno n)

end CodeDiagram.Graph
