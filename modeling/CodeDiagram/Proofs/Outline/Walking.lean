/-
# The walk through a document

`Outline.build` goes through a document and passes over nodes that it has seen.  A node is kept if
it lies within the depth limit, the node around it is kept, and its identity was not met before:
`Kept` says so of the places in a document, in document order.  Where all identities are different
they are all the places within the limit (`Kept.listing`).

The invariant is `Gathered`: a place inside a kept one is kept, or waits, or is of a node that was
kept before (`Gathered.keep`, `Gathered.pass`).  What comes out is the outline that is drawn, in one
piece, of the places that are kept (`build_eq_drawn_of_kept`).
-/
import CodeDiagram.Proofs.Outline.Building
import Mathlib.Data.List.Induction

namespace CodeDiagram.Outline

open Syntax

variable {fe : FrontEnd} {limit labelLength : Nat} {d : Document}

/-! ## 1. Places that are kept -/

/-- The places that a walk keeps, in document order: within the limit, inside a place that is kept,
and not of a node that was kept before. -/
structure Kept (root : Node) (limit : Nat) (ps : List Place) : Prop where
  sorted : (ps.map (·.path)).Pairwise (· < ·)
  mem_iff : ∀ k, k ∈ ps ↔ k.path.length ≤ limit ∧ root.at? k.path = some k.node ∧ HeldIn ps k ∧
    ∀ l ∈ ps, l.path < k.path → l.node.id ≠ k.node.id

/-- If all identities are different, every place within the limit is kept. -/
theorem Kept.listing {root : Node} {ps : List Place} (h : Kept root limit ps)
    (hroot : root.ids.Nodup) : Listing root limit ps where
  sorted := h.sorted
  mem_iff := by
    have hall : ∀ (path : List Nat) (node : Node), path.length ≤ limit →
        root.at? path = some node → (⟨path, node⟩ : Place) ∈ ps := by
      intro path
      -- from the root on: the place around is kept
      induction path using List.reverseRecOn with
      | nil =>
        intro node hlen hat
        refine (h.mem_iff _).mpr ⟨hlen, hat, fun hne => absurd rfl hne, fun l hl hlt => ?_⟩
        exact absurd hlt (List.not_lt_nil _)
      | append_singleton p i ih =>
        intro node hlen hat
        have hsome := Node.at?_isSome_of_prefix (List.prefix_append p [i]) (by rw [hat]; rfl)
        obtain ⟨m, hm⟩ := Option.isSome_iff_exists.mp hsome
        have hlen' : p.length ≤ limit := by
          simp at hlen
          omega
        refine (h.mem_iff _).mpr ⟨hlen, hat, fun _ => ?_, fun l hl hlt hid => ?_⟩
        · rw [List.dropLast_concat]
          exact List.mem_map_of_mem (ih m hlen' hm)
        · have hpath := Node.path_unique hroot ((h.mem_iff l).mp hl).2.1 hat hid
          rw [hpath] at hlt
          exact List.lt_irrefl _ hlt
    intro k
    constructor
    · intro hk
      obtain ⟨hlen, hat, -⟩ := (h.mem_iff k).mp hk
      exact ⟨hlen, hat⟩
    · rintro ⟨hlen, hat⟩
      exact hall k.path k.node hlen hat

/-- The places that are kept are a tree from the root down. -/
theorem Kept.rooted {root : Node} {ps : List Place} (h : Kept root limit ps) : Rooted root ps where
  root_mem := by
    refine (h.mem_iff _).mpr ⟨Nat.zero_le _, rfl, fun hne => absurd rfl hne, fun l hl hlt => ?_⟩
    exact absurd hlt (List.not_lt_nil _)
  held := fun k hk => ((h.mem_iff k).mp hk).2.2.1
  sorted := h.sorted

/-- The places that were kept so far and those that wait: a place inside a kept one is kept, or
waits, or is of a node that was kept before. -/
structure Gathered (root : Node) (limit : Nat) (kept waiting : List Place) : Prop
    extends InOrder root limit kept waiting where
  distinct : (kept.map (·.node.id)).Nodup
  covered : ∀ k : Place, k.path.length ≤ limit → root.at? k.path = some k.node → HeldIn kept k →
    k ∈ kept ∨ k ∈ waiting ∨ ∃ l ∈ kept, l.path < k.path ∧ l.node.id = k.node.id

namespace Gathered

variable {root : Node} {kept waiting : List Place}

/-- At first the root waits. -/
theorem start (root : Node) (limit : Nat) : Gathered root limit [] [⟨[], root⟩] where
  toInOrder := .start root limit
  distinct := List.nodup_nil
  covered := by
    intro k _ hat hheld
    have hnil : k.path = [] := by
      refine Classical.byContradiction fun hne => ?_
      exact absurd (hheld hne) List.not_mem_nil
    obtain ⟨path, node⟩ := k
    obtain rfl : path = [] := hnil
    obtain rfl : root = node := Option.some.inj hat
    exact Or.inr (Or.inl List.mem_cons_self)

/-- **A node that was not met before is kept**, and what is inside it waits. -/
theorem keep {k : Place} (h : Gathered root limit kept (k :: waiting))
    (hnew : k.node.id ∉ kept.map (·.node.id)) :
    Gathered root limit (kept ++ [k]) (placesInside limit k ++ waiting) where
  toInOrder := h.toInOrder.step
  distinct := by
    rw [List.map_append, List.map_singleton, ← List.concat_eq_append]
    exact h.distinct.concat hnew
  covered := by
    intro l hlen hat hheld
    by_cases hold : HeldIn kept l
    · rcases h.covered l hlen hat hold with hl | hl | ⟨m, hm, hlt, hid⟩
      · exact Or.inl (List.mem_append_left _ hl)
      · rcases List.mem_cons.mp hl with rfl | hl
        · exact Or.inl (by simp)
        · exact Or.inr (Or.inl (List.mem_append_right _ hl))
      · exact Or.inr (Or.inr ⟨m, List.mem_append_left _ hm, hlt, hid⟩)
    · -- the place around it has just been kept
      obtain ⟨hne, hout⟩ := Classical.not_imp.mp hold
      have hin := hheld hne
      rw [List.map_append, List.mem_append] at hin
      have hlast : l.path.dropLast = k.path := by simpa [hout] using hin
      have hpath : l.path = k.path ++ [l.path.getLast hne] := by
        rw [← hlast, List.dropLast_append_getLast]
      have hchild := hat
      rw [hpath, Node.at?_concat (h.within k (by simp)).2] at hchild
      have hshort : k.path.length < limit := by
        rw [hpath, List.length_append] at hlen
        simp at hlen
        omega
      exact Or.inr (Or.inl (List.mem_append_left _
        (mem_placesInside.mpr ⟨hshort, _, hpath, hchild⟩)))

/-- **A node that was met before is passed over.** -/
theorem pass {k : Place} (h : Gathered root limit kept (k :: waiting))
    (hold : k.node.id ∈ kept.map (·.node.id)) : Gathered root limit kept waiting where
  toInOrder := h.toInOrder.skip
  distinct := h.distinct
  covered := by
    intro l hlen hat hheld
    rcases h.covered l hlen hat hheld with hl | hl | hl
    · exact Or.inl hl
    · rcases List.mem_cons.mp hl with rfl | hl
      · obtain ⟨m, hm, hid⟩ := List.mem_map.mp hold
        exact Or.inr (Or.inr ⟨m, hm, h.path_lt hm, hid⟩)
      · exact Or.inr (Or.inl hl)
    · exact Or.inr (Or.inr hl)

/-- In the end all places are kept that a walk keeps. -/
theorem isKept (h : Gathered root limit kept []) : Kept root limit kept where
  sorted := by
    have := h.sorted
    rw [List.append_nil] at this
    exact List.pairwise_map.mpr this
  mem_iff := by
    intro k
    constructor
    · intro hk
      obtain ⟨hlen, hat⟩ := h.within k (by simpa using hk)
      refine ⟨hlen, hat, h.held k (by simpa using hk), fun l hl hlt hid => ?_⟩
      rw [List.inj_on_of_nodup_map h.distinct hl hk hid] at hlt
      exact List.lt_irrefl _ hlt
    · rintro ⟨hlen, hat, hheld, hnew⟩
      rcases h.covered k hlen hat hheld with hk | hk | ⟨l, hl, hlt, hid⟩
      · exact hk
      · cases hk
      · exact absurd hid (hnew l hl hlt)

end Gathered

/-! ## 2. The run -/

/-- **The run**: from a drawn outline and the visits of the places that wait, what comes out is the
drawn outline of the places that are kept. -/
theorem grow_drawn {kept waiting : List Place} (h : Gathered d.root limit kept waiting)
    (hs : (graphOf fe labelLength d kept).Sound) :
    ∃ ps, Kept d.root limit ps ∧ (graphOf fe labelLength d ps).Sound ∧
      (drawn fe limit labelLength d kept).grow fe limit labelLength d
        (kept.map (·.node.id)).reverse (waiting.map (visitOf kept)) =
          drawn fe limit labelLength d ps := by
  induction hn : Visit.sizes (waiting.map (visitOf kept)) using Nat.strongRecOn
    generalizing kept waiting with
  | ind n ih =>
    cases waiting with
    | nil =>
      refine ⟨kept, h.isKept, hs, ?_⟩
      rw [List.map_nil, grow]
    | cons k waiting =>
      have hmet : (kept.map (·.node.id)).reverse.contains (visitOf kept k).node.id =
          decide (k.node.id ∈ kept.map (·.node.id)) := by
        rw [List.contains_eq_mem, visitOf]
        simp
      rw [List.map_cons, grow, hmet]
      by_cases hold : k.node.id ∈ kept.map (·.node.id)
      · -- the node is passed over
        have hless : Visit.sizes (waiting.map (visitOf kept)) < n := by
          have hpos : 0 < k.node.size :=
            Nat.lt_of_le_of_lt (Nat.zero_le _) k.node.sizes_namedChildren_lt
          rw [← hn, List.map_cons, Visit.sizes_cons]
          exact Nat.lt_add_of_pos_left hpos
        rw [if_pos (decide_eq_true hold)]
        exact ih _ hless (h.pass hold) hs rfl
      · -- the node is kept
        have hheld : ∀ l ∈ kept, HeldIn kept l := fun l hl => h.held l (by simp [hl])
        have hk : HeldIn kept k := h.held k (by simp)
        have hwait : waiting.map (visitOf kept) = waiting.map (visitOf (kept ++ [k])) := by
          refine List.map_congr_left fun l hl => ?_
          exact (visitOf_append (h.held l (by simp [hl])) [k]).symm
        have hinside := inside_visitOf limit fun l hl => h.path_ne hl
        have hless : Visit.sizes
            ((placesInside limit k ++ waiting).map (visitOf (kept ++ [k]))) < n := by
          rw [List.map_append, ← hinside, ← hwait, ← hn]
          exact Visit.sizes_inside_append_lt _ _ _ _
        obtain ⟨ps, hps, hsound, hrun⟩ :=
          ih _ hless (h.keep hold) (sound_graphOf_concat hheld hk hs) rfl
        refine ⟨ps, hps, hsound, ?_⟩
        rw [if_neg (by simpa using hold), visit_drawn hheld hk hs]
        rw [List.map_append, List.map_append, List.reverse_append] at hrun
        rw [← hrun, hinside, hwait]
        rfl

/-- **The outline of a document is drawn of the places that a walk keeps.** -/
theorem build_eq_drawn_of_kept (fe : FrontEnd) (limit labelLength : Nat) (d : Document) :
    ∃ ps, Kept d.root limit ps ∧ (graphOf fe labelLength d ps).Sound ∧
      build fe limit labelLength d = drawn fe limit labelLength d ps :=
  grow_drawn (Gathered.start d.root limit) Graph.Sound.empty

/-- Where all identities are different it is drawn of a listing of the nodes. -/
theorem build_eq_drawn (fe : FrontEnd) (limit labelLength : Nat) (hd : d.root.ids.Nodup) :
    ∃ ps, Listing d.root limit ps ∧ (graphOf fe labelLength d ps).Sound ∧
      build fe limit labelLength d = drawn fe limit labelLength d ps := by
  obtain ⟨ps, hkept, hs, hbuild⟩ := build_eq_drawn_of_kept fe limit labelLength d
  exact ⟨ps, hkept.listing hd, hs, hbuild⟩

end CodeDiagram.Outline
