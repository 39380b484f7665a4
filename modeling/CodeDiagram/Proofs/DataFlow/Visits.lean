/-
# How often a node is visited

The walk visits the nodes that the evaluation of the root visits.  Values, what targets leave to be
read, and the rest are different parts of a node, so no node would be visited twice, were it not for
targets that are values too: what such a target leaves to be read was visited already
(`FrontEnd.Rereads`).  `nodup_visits_iff` says that this is the only way.

The argument is a count.  Without such targets the visits from a node on are, by identity, part of
what is at and below the node (`visits_subperm`), one step of which is `ahead_subperm`.
-/
import CodeDiagram.Proofs.FrontEnd.Steps
import Mathlib.Data.List.Perm.Subperm

namespace CodeDiagram

open Syntax

variable {fe : FrontEnd} {d : Document}

/-! ## 1. Lists in lists -/

section Lists

variable {α β : Type}

theorem subperm_flatMap {l l' : List α} (h : l.Subperm l') (f : α → List β) :
    (l.flatMap f).Subperm (l'.flatMap f) := by
  obtain ⟨k, hperm, hsub⟩ := h
  exact ⟨k.flatMap f, hperm.flatMap_right f, hsub.flatMap f⟩

theorem subperm_flatMap_right {l : List α} {f g : α → List β}
    (h : ∀ a ∈ l, (f a).Subperm (g a)) : (l.flatMap f).Subperm (l.flatMap g) := by
  induction l with
  | nil => exact List.Subperm.refl _
  | cons a l ih =>
    rw [List.flatMap_cons, List.flatMap_cons]
    exact (h a List.mem_cons_self).append (ih fun b hb => h b (List.mem_cons_of_mem _ hb))

theorem nodup_of_subperm {l l' : List α} (h : l.Subperm l') (hl : l'.Nodup) : l.Nodup := by
  obtain ⟨k, hperm, hsub⟩ := h
  exact hperm.nodup_iff.mp (hl.sublist hsub)

end Lists

/-! ## 2. One node -/

/-- The identities of the nodes that are visited from a node on. -/
def FrontEnd.visits (fe : FrontEnd) (d : Document) (n : Node) : List Nat :=
  (fe.trail d n).map (·.id)

theorem FrontEnd.visits_eq (fe : FrontEnd) (d : Document) (n : Node) :
    fe.visits d n = n.id :: (fe.ahead d n).flatMap (fe.visits d) := by
  rw [visits, trail_eq, List.map_cons, List.map_flatMap]
  rfl

/-- A node evaluates one of its targets, and the target leaves something to be read again. -/
def FrontEnd.Rereads (fe : FrontEnd) (d : Document) (n : Node) : Prop :=
  ∃ values targets binding next, fe.flowStep d n = .bind values targets binding next ∧
    ∃ t ∈ targets, t ∈ values ∧ (fe.bindTargets d t binding).reads ≠ []

/-- What targets leave to be read is part of those targets that leave something. -/
theorem ids_readsOf (hfe : fe.IsLawful) (targets : List Node) (binding : Binding) :
    ((fe.readsOf d targets binding).flatMap Node.ids).Sublist
      ((targets.filter fun t => !(fe.bindTargets d t binding).reads.isEmpty).flatMap
        Node.ids) := by
  induction targets with
  | nil => exact List.nil_sublist _
  | cons t targets ih =>
    rw [FrontEnd.readsOf, List.flatMap_cons, List.flatMap_append, List.filter_cons]
    split
    · rw [List.flatMap_cons]
      exact (hfe.reads_ids d t binding).append ih
    · rename_i hempty
      have hnil : (fe.bindTargets d t binding).reads = [] := by simpa using hempty
      rw [hnil, List.flatMap_nil, List.nil_append]
      exact ih

theorem nodup_children {n : Node} (h : n.ids.Nodup) : n.children.Nodup := by
  rw [Node.ids_eq, List.nodup_cons, List.nodup_flatMap] at h
  refine h.2.2.imp ?_
  rintro a b hab rfl
  exact hab a.id_mem_ids a.id_mem_ids

/-- **One step**: unless a node reads targets again, it leads to different parts of itself. -/
theorem ahead_subperm (hfe : fe.IsLawful) {n : Node} (hn : n.ids.Nodup)
    (hno : ¬ fe.Rereads d n) :
    ((fe.ahead d n).flatMap Node.ids).Subperm (n.children.flatMap Node.ids) := by
  have hchildren := nodup_children hn
  have hbelow := fun m => hfe.below (d := d) (n := n) (m := m)
  have hapart := hfe.apart (d := d) hchildren
  -- different children make up part of all children
  have hparts : ∀ ns : List Node, ns.Nodup → (∀ m ∈ ns, m ∈ n.children) →
      (ns.flatMap Node.ids).Subperm (n.children.flatMap Node.ids) := fun ns hns hmem =>
    subperm_flatMap (List.subperm_of_subset hns hmem) _
  unfold FrontEnd.ahead
  cases hstep : fe.flowStep d n with
  | bind values targets binding next =>
    rw [hstep] at hapart hbelow
    obtain ⟨hvalues, htargets⟩ := hapart
    obtain ⟨hv, hnext, hvn⟩ := List.nodup_append'.mp hvalues
    obtain ⟨ht, -, htn⟩ := List.nodup_append'.mp htargets
    have hread : (targets.filter
        fun t => !(fe.bindTargets d t binding).reads.isEmpty).Sublist targets :=
      List.filter_sublist
    have hvt : List.Disjoint values (targets.filter
        fun t => !(fe.bindTargets d t binding).reads.isEmpty) := by
      intro t htv htt
      obtain ⟨htt, hreads⟩ := List.mem_filter.mp htt
      exact hno ⟨values, targets, binding, next, hstep, t, htt, htv, by simpa using hreads⟩
    have hall := hparts (values ++ (targets.filter
        fun t => !(fe.bindTargets d t binding).reads.isEmpty) ++ next) ?_ ?_
    · refine List.Subperm.trans (List.Sublist.subperm ?_) hall
      simp only [List.flatMap_append]
      exact ((List.Sublist.refl _).append (ids_readsOf hfe targets binding)).append
        (List.Sublist.refl _)
    · refine (hv.append (ht.sublist hread) hvt).append hnext ?_
      rw [List.disjoint_append_left]
      exact ⟨hvn, fun t htt => htn (hread.mem htt)⟩
    · intro m hm
      simp only [List.mem_append] at hm
      refine hbelow m ?_
      simp only [FlowStep.mentions, List.mem_append]
      rcases hm with (hm | hm) | hm
      · exact Or.inl (Or.inl hm)
      · exact Or.inl (Or.inr (hread.mem hm))
      · exact Or.inr hm
  | function name parameters body =>
    rw [hstep] at hapart hbelow
    exact hparts body hapart hbelow
  | reference name => exact List.nil_subperm
  | walk children =>
    rw [hstep] at hapart hbelow
    exact hparts children hapart hbelow
  | skip => exact List.nil_subperm

/-- What a node leads to is part of it. -/
theorem ids_sublist_of_mem_ahead (hfe : fe.IsLawful) {n m : Node} (h : m ∈ fe.ahead d n) :
    m.ids.Sublist n.ids := by
  have hchild : ∀ c ∈ (fe.flowStep d n).mentions, c.ids.Sublist n.ids := fun c hc =>
    Node.ids_sublist_of_mem_children (hfe.below hc)
  rcases mentions_or_reads_of_mem_ahead h with hm | ⟨t, ht, binding, hm⟩
  · exact hchild m hm
  · have hread : m.ids.Sublist t.ids :=
      (List.sublist_flatten_of_mem (List.mem_map_of_mem hm)).trans (hfe.reads_ids d t binding)
    exact hread.trans (hchild t ht)

/-! ## 3. All nodes -/

/-- What is visited from a visited node on is part of the visits. -/
theorem trail_sublist_of_mem {n m : Node} (h : m ∈ fe.trail d n) :
    (fe.trail d m).Sublist (fe.trail d n) := by
  induction n using FrontEnd.trail.induct fe d with
  | case1 n ih =>
    rw [FrontEnd.trail_eq] at h
    rcases List.mem_cons.mp h with rfl | h
    · exact List.Sublist.refl _
    · obtain ⟨c, hc, hm⟩ := List.mem_flatMap.mp h
      rw [FrontEnd.trail_eq fe d n, List.flatMap]
      exact ((ih c hc hm).trans
        (List.sublist_flatten_of_mem (List.mem_map_of_mem hc))).cons _

/-- What is visited from a node on is part of the node. -/
theorem ids_sublist_of_mem_trail (hfe : fe.IsLawful) {n m : Node} (h : m ∈ fe.trail d n) :
    m.ids.Sublist n.ids := by
  induction n using FrontEnd.trail.induct fe d with
  | case1 n ih =>
    rw [FrontEnd.trail_eq] at h
    rcases List.mem_cons.mp h with rfl | h
    · exact List.Sublist.refl _
    · obtain ⟨c, hc, hm⟩ := List.mem_flatMap.mp h
      exact (ih c hc hm).trans (ids_sublist_of_mem_ahead hfe hc)

/-- **The run**: unless targets are read again, the visits from a node on are part of the node. -/
theorem visits_subperm (hfe : fe.IsLawful) {n : Node} (hn : n.ids.Nodup)
    (hno : ∀ m ∈ fe.trail d n, ¬ fe.Rereads d m) : (fe.visits d n).Subperm n.ids := by
  induction n using FrontEnd.trail.induct fe d with
  | case1 n ih =>
    have hahead : ∀ m ∈ fe.ahead d n, (fe.visits d m).Subperm m.ids := by
      intro m hm
      exact ih m hm (hn.sublist (ids_sublist_of_mem_ahead hfe hm)) fun k hk =>
        hno k (FrontEnd.mem_trail_of_mem_ahead hm hk)
    rw [FrontEnd.visits_eq, Node.ids_eq, List.subperm_cons]
    exact (subperm_flatMap_right hahead).trans
      (ahead_subperm hfe hn (hno n (fe.mem_trail_self d n)))

/-- A node that reads a target again makes visits come up twice. -/
theorem not_nodup_visits_of_rereads (hfe : fe.IsLawful) {n : Node} (h : fe.Rereads d n) :
    ¬ (fe.visits d n).Nodup := by
  obtain ⟨values, targets, binding, next, hstep, t, htt, htv, hreads⟩ := h
  obtain ⟨m, hm⟩ := List.exists_mem_of_ne_nil _ hreads
  have hahead : fe.ahead d n = values ++ fe.readsOf d targets binding ++ next := by
    rw [FrontEnd.ahead, hstep]
  intro hnodup
  rw [FrontEnd.visits_eq, hahead, List.flatMap_append, List.flatMap_append,
    List.append_assoc] at hnodup
  have hdisjoint := (List.nodup_append'.mp hnodup.of_cons).2.2
  -- once as part of the value, once as what the target leaves to be read
  have hfirst : m.id ∈ values.flatMap (fe.visits d) :=
    List.mem_flatMap.mpr ⟨t, htv, List.mem_map_of_mem (hfe.reads_visited hm)⟩
  have hsecond : m.id ∈ (fe.readsOf d targets binding).flatMap (fe.visits d) :=
    List.mem_flatMap.mpr ⟨m, List.mem_flatMap.mpr ⟨t, htt, hm⟩,
      List.mem_map_of_mem (fe.mem_trail_self d m)⟩
  exact hdisjoint hfirst (List.mem_append_left _ hsecond)

/-- **No node is visited twice** exactly if no visited node reads a target again. -/
theorem nodup_visits_iff (hfe : fe.IsLawful) {n : Node} (hn : n.ids.Nodup) :
    (fe.visits d n).Nodup ↔ ∀ m ∈ fe.trail d n, ¬ fe.Rereads d m := by
  constructor
  · intro hnodup m hm hrereads
    exact not_nodup_visits_of_rereads hfe hrereads
      (hnodup.sublist ((trail_sublist_of_mem hm).map _))
  · exact fun hno => nodup_of_subperm (visits_subperm hfe hn hno) hn

/-! ## 4. What a node finds by itself -/

/-- The values of an assignment, and of whatever else binds names. -/
def FrontEnd.valuesOf (fe : FrontEnd) (d : Document) (n : Node) : List Node :=
  match fe.flowStep d n with
  | .bind values _ _ _ => values
  | _ => []

/-- Whether an event is a read. -/
def Event.isRead : Event → Bool
  | .read _ _ => true
  | _ => false

/-- **One step**: a node finds what its values find, then its own events, and then what the other
nodes find that it leads to.  It reads one name at most, and then it has no values. -/
theorem trace_shape (fe : FrontEnd) (d : Document) (n : Node) :
    ∃ (own : List Event) (rest : List Node),
    fe.ahead d n = fe.valuesOf d n ++ rest ∧
    fe.trace d n = (fe.valuesOf d n).flatMap (fe.trace d) ++ own.map (n, ·) ++
      rest.flatMap (fe.trace d) ∧
    ((∀ e ∈ own, e.isRead = false) ∨ fe.valuesOf d n = [] ∧ own.length = 1) := by
  rw [FrontEnd.trace_eq]
  unfold FrontEnd.ahead FrontEnd.valuesOf
  cases fe.flowStep d n with
  | bind values targets binding next =>
    refine ⟨(fe.namesOf d targets binding).map .define, fe.readsOf d targets binding ++ next,
      List.append_assoc _ _ _, ?_, Or.inl ?_⟩
    · simp only [List.flatMap_append, List.append_assoc, List.map_map]
      rfl
    · intro e he
      obtain ⟨b, -, rfl⟩ := List.mem_map.mp he
      rfl
  | function name parameters body =>
    exact ⟨[.enter name (d.line n) parameters], body, rfl, rfl, Or.inl (by simp [Event.isRead])⟩
  | reference name => exact ⟨[.read name (d.line n)], [], rfl, rfl, Or.inr ⟨rfl, rfl⟩⟩
  | walk children => exact ⟨[], children, rfl, rfl, Or.inl (by simp)⟩
  | skip => exact ⟨[], [], rfl, rfl, Or.inl (by simp)⟩

/-- What is found from a node on is found at the nodes that are visited. -/
theorem mem_trail_of_mem_trace {n : Node} {p : Node × Event} (h : p ∈ fe.trace d n) :
    p.1 ∈ fe.trail d n := by
  induction n using FrontEnd.trail.induct fe d with
  | case1 n ih =>
    obtain ⟨own, rest, hahead, htrace, -⟩ := trace_shape fe d n
    have hbelow : ∀ c ∈ fe.ahead d n, p ∈ fe.trace d c → p.1 ∈ fe.trail d n := fun c hc hp =>
      FrontEnd.mem_trail_of_mem_ahead hc (ih c hc hp)
    rw [hahead] at hbelow
    rw [htrace] at h
    rcases List.mem_append.mp h with h | h
    · rcases List.mem_append.mp h with h | h
      · obtain ⟨c, hc, hp⟩ := List.mem_flatMap.mp h
        exact hbelow c (List.mem_append_left _ hc) hp
      · obtain ⟨e, -, rfl⟩ := List.mem_map.mp h
        exact fe.mem_trail_self d n
    · obtain ⟨c, hc, hp⟩ := List.mem_flatMap.mp h
      exact hbelow c (List.mem_append_right _ hc) hp

/-! ## 5. A visit finds one read -/

/-- The nodes that reads are found at, in order. -/
def FrontEnd.readers (fe : FrontEnd) (d : Document) (n : Node) : List Node :=
  ((fe.trace d n).filter (·.2.isRead)).map (·.1)

theorem readers_flatMap (ns : List Node) :
    ((ns.flatMap (fe.trace d)).filter (·.2.isRead)).map (·.1) = ns.flatMap (fe.readers d) := by
  rw [List.filter_flatMap, List.map_flatMap]
  rfl

/-- **A visit finds one read at most.** -/
theorem readers_sublist (n : Node) : (fe.readers d n).Sublist (fe.trail d n) := by
  induction n using FrontEnd.trail.induct fe d with
  | case1 n ih =>
    obtain ⟨own, rest, hahead, htrace, hown⟩ := trace_shape fe d n
    have hbelow := List.Sublist.flatMap_right _ ih
    rw [hahead, List.flatMap_append] at hbelow
    rw [FrontEnd.trail_eq, hahead, FrontEnd.readers, htrace, List.filter_append,
      List.filter_append, List.map_append, List.map_append, readers_flatMap, readers_flatMap]
    rcases hown with hnone | ⟨hvalues, hone⟩
    · have hnil : (own.map (n, ·)).filter (·.2.isRead) = [] := by
        rw [List.filter_eq_nil_iff]
        intro p hp
        obtain ⟨e, he, rfl⟩ := List.mem_map.mp hp
        rw [hnone e he]
        exact Bool.false_ne_true
      rw [hnil, List.map_nil, List.append_nil]
      exact hbelow.cons n
    · obtain ⟨e, rfl⟩ := List.length_eq_one_iff.mp hone
      rw [hvalues, List.flatMap_nil, List.nil_append] at hbelow ⊢
      have hself : ((([e].map (n, ·)).filter (·.2.isRead)).map (·.1)).Sublist [n] :=
        List.Sublist.map (fun p : Node × Event => p.1) List.filter_sublist
      exact hself.append hbelow

/-! ## 6. Values come before definitions -/

/-- An event that comes after a definition is not found in the values of the definition. -/
def FrontEnd.NotFed (fe : FrontEnd) (d : Document) (p q : Node × Event) : Prop :=
  ∀ b, p.2 = .define b → q.1.id ∉ (fe.valuesOf d p.1).flatMap (fe.visits d)

/-- The values of what is found from a node on are visited from the node on. -/
theorem visits_valuesOf_subset {n : Node} {p : Node × Event} (h : p ∈ fe.trace d n) :
    (fe.valuesOf d p.1).flatMap (fe.visits d) ⊆ fe.visits d n := by
  obtain ⟨own, rest, hahead, -, -⟩ := trace_shape fe d p.1
  have hsub : fe.visits d p.1 ⊆ fe.visits d n :=
    ((trail_sublist_of_mem (mem_trail_of_mem_trace h)).map _).subset
  refine List.Subset.trans (fun id hid => ?_) hsub
  rw [FrontEnd.visits_eq, hahead, List.flatMap_append]
  exact List.mem_cons_of_mem _ (List.mem_append_left _ hid)

/-- What nodes with different visits find does not feed each other. -/
theorem notFed_of_disjoint {a b : Node} {p q : Node × Event}
    (hab : List.Disjoint (fe.visits d a) (fe.visits d b)) (hp : p ∈ fe.trace d a)
    (hq : q ∈ fe.trace d b) : fe.NotFed d p q := fun _ _ hmem =>
  hab (visits_valuesOf_subset hp hmem) (List.mem_map_of_mem (mem_trail_of_mem_trace hq))

/-- **Values come before definitions**: if no node is visited twice, then nothing that is found
after a definition is found in its values. -/
theorem trace_notFed {n : Node} (hn : (fe.visits d n).Nodup) :
    (fe.trace d n).Pairwise (fe.NotFed d) := by
  induction n using FrontEnd.trail.induct fe d with
  | case1 n ih =>
    obtain ⟨own, rest, hahead, htrace, -⟩ := trace_shape fe d n
    rw [FrontEnd.visits_eq, List.nodup_cons] at hn
    obtain ⟨hself, hbelow⟩ := hn
    obtain ⟨heach, hdisjoint⟩ := List.nodup_flatMap.mp hbelow
    -- what the values find, and what the rest finds
    have hparts : ((fe.valuesOf d n ++ rest).flatMap (fe.trace d)).Pairwise (fe.NotFed d) := by
      rw [← hahead, List.pairwise_flatMap]
      exact ⟨fun c hc => ih c hc (heach c hc),
        hdisjoint.imp fun hab p hp q hq => notFed_of_disjoint hab hp hq⟩
    rw [List.flatMap_append, List.pairwise_append] at hparts
    obtain ⟨hvalues, hrest, hcross⟩ := hparts
    rw [hahead, List.flatMap_append] at hself hbelow
    have hapart := (List.nodup_append'.mp hbelow).2.2
    rw [htrace]
    refine List.pairwise_append.mpr ⟨List.pairwise_append.mpr ⟨hvalues, ?_, ?_⟩, hrest, ?_⟩
    · refine List.pairwise_iff_forall_sublist.mpr fun {p q} hpq => ?_
      have hp := hpq.mem (List.mem_cons_self (a := p))
      have hq := hpq.mem (List.mem_cons_of_mem p (List.mem_singleton_self q))
      obtain ⟨e, -, rfl⟩ := List.mem_map.mp hp
      obtain ⟨e', -, rfl⟩ := List.mem_map.mp hq
      exact fun _ _ hmem => hself (List.mem_append_left _ hmem)
    · intro p hp q hq
      obtain ⟨e, -, rfl⟩ := List.mem_map.mp hq
      obtain ⟨v, hv, hp⟩ := List.mem_flatMap.mp hp
      exact fun _ _ hmem => hself (List.mem_append_left _
        (List.mem_flatMap.mpr ⟨v, hv, visits_valuesOf_subset hp hmem⟩))
    · intro p hp q hq
      rcases List.mem_append.mp hp with hp | hp
      · exact hcross p hp q hq
      · obtain ⟨e, -, rfl⟩ := List.mem_map.mp hp
        obtain ⟨r, hr, hq⟩ := List.mem_flatMap.mp hq
        exact fun _ _ hmem => hapart hmem (List.mem_flatMap.mpr
          ⟨r, hr, List.mem_map_of_mem (mem_trail_of_mem_trace hq)⟩)

end CodeDiagram
