/-
# Which names the walk comes across

A name that is bound is met by the walk if the walk visits the node that binds it.  It does, unless
some visited node above that node passes over it: nothing that the visited node leads to has it
below (`FrontEnd.PassesOver`).  As long as no target is read again, this is the only way in which a
node that binds a name is not visited once (`visitsBindersOnce_iff`).

Places are found by way of named children.  The walk stays on these unless a step mentions a token
(`StaysNamed.visitsNamed`).
-/
import CodeDiagram.Proofs.DataFlow.Visits
import CodeDiagram.Proofs.FrontEnd.Bindings
import Mathlib.Data.List.Pairwise

namespace CodeDiagram

open Syntax

variable {fe : FrontEnd} {d : Document}

/-! ## 1. Named nodes -/

/-- The walk stays on nodes that named children lead to. -/
def VisitsNamed (fe : FrontEnd) (d : Document) : Prop :=
  ∀ n ∈ fe.trail d d.root, ∃ path, d.root.at? path = some n

/-- No step of the walk mentions a token. -/
def StaysNamed (fe : FrontEnd) (d : Document) : Prop :=
  ∀ n ∈ fe.trail d d.root, ∀ m ∈ (fe.flowStep d n).mentions, m.isNamed = true

/-- Named children lead from a target to what it leaves to be read. -/
def FrontEnd.ReadsNamed (fe : FrontEnd) : Prop :=
  ∀ d t binding, ∀ m ∈ (fe.bindTargets d t binding).reads, ∃ path, t.at? path = some m

/-- What a target of Java leaves to be read is the target. -/
theorem Java.readsNamed : Java.frontEnd.ReadsNamed := by
  intro d t binding m h
  rw [frontEnd_bindTargets] at h
  obtain ⟨rfl, -⟩ := eq_of_mem_reads h
  exact ⟨[], rfl⟩

/-- What a target of Python leaves to be read stands at the ends of its containers. -/
theorem Python.readsNamed : Python.frontEnd.ReadsNamed := by
  intro d t binding m h
  have hend := (reads_sublist_frontier d t binding).mem h
  clear h
  induction t using frontier.induct with
  | case1 t hk ih =>
    rw [frontier_eq, if_pos hk] at hend
    obtain ⟨c, hc, hm⟩ := List.mem_flatMap.mp hend
    obtain ⟨path, hpath⟩ := ih c hc hm
    obtain ⟨i, hi⟩ := List.mem_iff_getElem?.mp hc
    exact ⟨i :: path, by rw [Node.at?_cons, hi, Option.bind_some, hpath]⟩
  | case2 t hk =>
    rw [frontier_eq, if_neg hk] at hend
    obtain rfl := List.mem_singleton.mp hend
    exact ⟨[], rfl⟩

/-- In both languages named children lead to what is left to be read. -/
theorem Language.readsNamed_frontEnd : ∀ l : Language, l.frontEnd.ReadsNamed
  | .python => Python.readsNamed
  | .java => Java.readsNamed

/-- Named children lead to what a node leads to, if its step mentions no token. -/
theorem exists_at?_of_mem_ahead (hfe : fe.IsLawful) (hreads : fe.ReadsNamed) {n m : Node}
    (hnamed : ∀ c ∈ (fe.flowStep d n).mentions, c.isNamed = true) (h : m ∈ fe.ahead d n) :
    ∃ path, n.at? path = some m := by
  have hchild : ∀ c ∈ (fe.flowStep d n).mentions, ∃ i, n.namedChildren[i]? = some c :=
    fun c hc => List.mem_iff_getElem?.mp (List.mem_filter.mpr ⟨hfe.below hc, hnamed c hc⟩)
  rcases mentions_or_reads_of_mem_ahead h with hm | ⟨t, ht, binding, hm⟩
  · obtain ⟨i, hi⟩ := hchild m hm
    exact ⟨[i], by rw [Node.at?_cons, hi, Option.bind_some, Node.at?_nil]⟩
  · obtain ⟨i, hi⟩ := hchild t ht
    obtain ⟨path, hpath⟩ := hreads d t binding m hm
    exact ⟨i :: path, by rw [Node.at?_cons, hi, Option.bind_some, hpath]⟩

/-- **A walk whose steps mention no token stays on named nodes.** -/
theorem StaysNamed.visitsNamed (hfe : fe.IsLawful) (hreads : fe.ReadsNamed)
    (h : StaysNamed fe d) : VisitsNamed fe d := by
  have hall : ∀ r : Node, (∀ n ∈ fe.trail d r, ∀ c ∈ (fe.flowStep d n).mentions,
      c.isNamed = true) → ∀ m ∈ fe.trail d r, ∃ path, r.at? path = some m := by
    intro r hnamed m hm
    induction r using FrontEnd.trail.induct fe d with
    | case1 r ih =>
      rw [FrontEnd.trail_eq] at hm
      rcases List.mem_cons.mp hm with rfl | hm
      · exact ⟨[], rfl⟩
      obtain ⟨a, ha, hma⟩ := List.mem_flatMap.mp hm
      obtain ⟨path, hpath⟩ := exists_at?_of_mem_ahead hfe hreads
        (hnamed r (fe.mem_trail_self d r)) ha
      obtain ⟨path', hpath'⟩ := ih a ha
        (fun n hn => hnamed n (FrontEnd.mem_trail_of_mem_ahead ha hn)) hma
      exact ⟨path ++ path', by rw [Node.at?_append, hpath, Option.bind_some, hpath']⟩
  exact hall d.root h

/-! ## 2. Nodes that are passed over -/

/-- The walk visits every node that binds a name, and visits it once. -/
def VisitsBindersOnce (fe : FrontEnd) (d : Document) : Prop :=
  ∀ path n, d.root.at? path = some n → fe.bound d n ≠ [] →
    ((fe.trail d d.root).map (·.id)).count n.id = 1

/-- What binds a name is visited, if each such node is visited once. -/
theorem VisitsBindersOnce.mem_trail (h : VisitsBindersOnce fe d) (hroot : d.root.ids.Nodup)
    (hnamed : VisitsNamed fe d) {path : List Nat} {n : Node} (hn : d.root.at? path = some n)
    (hbound : fe.bound d n ≠ []) : n ∈ fe.trail d d.root := by
  have hone := h path n hn hbound
  have hmem : n.id ∈ (fe.trail d d.root).map (·.id) := List.count_pos_iff.mp (by omega)
  obtain ⟨m, hm, hid⟩ := List.mem_map.mp hmem
  obtain ⟨path', hpath'⟩ := hnamed m hm
  obtain rfl := Node.path_unique hroot hpath' hn hid
  rwa [Option.some.inj (hpath'.symm.trans hn)] at hm

/-- Below a node there is one that binds a name, and nothing that the node leads to has it below. -/
def FrontEnd.PassesOver (fe : FrontEnd) (d : Document) (n : Node) : Prop :=
  ∃ i path m, n.at? (i :: path) = some m ∧ fe.bound d m ≠ [] ∧
    ∀ a ∈ fe.ahead d n, ∀ path', a.at? path' ≠ some m

/-- **The walk visits what binds a name**, if it passes over no such node. -/
theorem mem_trail_of_at? {n m : Node} (hno : ∀ k ∈ fe.trail d n, ¬ fe.PassesOver d k)
    {path : List Nat} (hm : n.at? path = some m) (hbound : fe.bound d m ≠ []) :
    m ∈ fe.trail d n := by
  induction n using FrontEnd.trail.induct fe d generalizing path with
  | case1 n ih =>
    cases path with
    | nil =>
      obtain rfl := Option.some.inj hm
      exact fe.mem_trail_self d n
    | cons i path =>
      have hlead : ∃ a ∈ fe.ahead d n, ∃ path', a.at? path' = some m := by
        by_contra hnone
        refine hno n (fe.mem_trail_self d n) ⟨i, path, m, hm, hbound, fun a ha path' ha' => ?_⟩
        exact hnone ⟨a, ha, path', ha'⟩
      obtain ⟨a, ha, path', ha'⟩ := hlead
      exact FrontEnd.mem_trail_of_mem_ahead ha
        (ih a ha (fun k hk => hno k (FrontEnd.mem_trail_of_mem_ahead ha hk)) ha')

/-! ## 3. Nodes that are visited -/

/-- Different nodes that a node leads to have nothing in common, unless targets are read again. -/
theorem disjoint_ids_of_mem_ahead (hfe : fe.IsLawful) {n a b : Node} (hn : n.ids.Nodup)
    (hno : ¬ fe.Rereads d n) (ha : a ∈ fe.ahead d n) (hb : b ∈ fe.ahead d n) (hab : a ≠ b) :
    List.Disjoint a.ids b.ids := by
  have hbelow : (n.children.flatMap Node.ids).Nodup := by
    rw [Node.ids_eq] at hn
    exact hn.of_cons
  have hpairs := (List.nodup_flatMap.mp (nodup_of_subperm (ahead_subperm hfe hn hno) hbelow)).2
  have : Std.Symm (Function.onFun List.Disjoint Node.ids) :=
    ⟨fun _ _ h _ hb ha => h ha hb⟩
  exact hpairs.forall ha hb hab

/-- **A visited node inside another one is visited from there**, unless targets are read again. -/
theorem mem_trail_of_id_mem (hfe : fe.IsLawful) {r n m : Node} (hr : r.ids.Nodup)
    (hno : ∀ k ∈ fe.trail d r, ¬ fe.Rereads d k) (hn : n ∈ fe.trail d r) (hm : m ∈ fe.trail d r)
    (hid : m.id ∈ n.ids) : m ∈ fe.trail d n := by
  induction r using FrontEnd.trail.induct fe d with
  | case1 r ih =>
    have hm' := hm
    rw [FrontEnd.trail_eq] at hn hm
    rcases List.mem_cons.mp hn with rfl | hn
    · exact hm'
    obtain ⟨a, ha, hna⟩ := List.mem_flatMap.mp hn
    have hida : m.id ∈ a.ids := (ids_sublist_of_mem_trail hfe hna).mem hid
    rcases List.mem_cons.mp hm with rfl | hm
    · -- the start of the walk is in no node that it leads to
      have hbelow := (ahead_subperm hfe hr (hno m (fe.mem_trail_self d m))).subset
        (List.mem_flatMap.mpr ⟨a, ha, hida⟩)
      rw [Node.ids_eq] at hr
      exact absurd hbelow (List.nodup_cons.mp hr).1
    obtain ⟨b, hb, hmb⟩ := List.mem_flatMap.mp hm
    have hidb : m.id ∈ b.ids := (ids_sublist_of_mem_trail hfe hmb).mem m.id_mem_ids
    by_cases hab : a = b
    · subst hab
      exact ih a ha (hr.sublist (ids_sublist_of_mem_ahead hfe ha))
        (fun k hk => hno k (FrontEnd.mem_trail_of_mem_ahead ha hk)) hna hmb
    · exact absurd hidb
        (disjoint_ids_of_mem_ahead hfe hr (hno r (fe.mem_trail_self d r)) ha hb hab hida)

/-- **Every node that binds a name is visited once** exactly if none is passed over, unless targets
are read again. -/
theorem visitsBindersOnce_iff (hfe : fe.IsLawful) (hroot : d.root.ids.Nodup)
    (hnamed : VisitsNamed fe d) (hno : ∀ n ∈ fe.trail d d.root, ¬ fe.Rereads d n) :
    VisitsBindersOnce fe d ↔ ∀ n ∈ fe.trail d d.root, ¬ fe.PassesOver d n := by
  constructor
  · rintro honce n hn ⟨i, path, m, hm, hbound, hahead⟩
    obtain ⟨top, htop⟩ := hnamed n hn
    have hmroot : d.root.at? (top ++ i :: path) = some m := by
      rw [Node.at?_append, htop, Option.bind_some, hm]
    have hmtrail := honce.mem_trail hroot hnamed hmroot hbound
    -- it is visited from the node that passes over it, so from something that this leads to
    have hfrom := mem_trail_of_id_mem hfe hroot hno hn hmtrail
      ((Node.ids_sublist_of_at? hm).mem m.id_mem_ids)
    rw [FrontEnd.trail_eq] at hfrom
    rcases List.mem_cons.mp hfrom with rfl | hfrom
    · have hself := hroot.sublist (ids_sublist_of_mem_trail hfe hn)
      exact Node.id_ne_of_at?_cons hself hm rfl
    obtain ⟨a, ha, hma⟩ := List.mem_flatMap.mp hfrom
    obtain ⟨patha, hpatha⟩ := hnamed a
      ((trail_sublist_of_mem hn).mem (FrontEnd.mem_trail_of_mem_ahead ha (fe.mem_trail_self d a)))
    obtain ⟨path', hpath'⟩ := Node.exists_at?_of_id_mem hroot hpatha hmroot
      ((ids_sublist_of_mem_trail hfe hma).mem m.id_mem_ids)
    exact hahead a ha path' hpath'
  · intro hcovers path n hn hbound
    exact List.count_eq_one_of_mem ((nodup_visits_iff hfe hroot).mpr hno)
      (List.mem_map_of_mem (mem_trail_of_at? hcovers hn hbound))

end CodeDiagram
