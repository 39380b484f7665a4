/-
# What follows from single visits

If the walk visits no node twice, then every occurrence of a name is read once: there are no more
uses than nodes of the tree, and a definition comes after all reads in its own values, so that none
of them is linked to it (`IsReadOnce`).

`visits_once_iff` says when that is: unless a visited node updates something other than a name.
`augmented_visited_twice` is a text where that happens.
-/
import CodeDiagram.Proofs.DataFlow.Uses
import CodeDiagram.Proofs.FrontEnd.Rereading

namespace CodeDiagram

open Syntax

namespace DataFlow

open CodeDiagram.Graph

/-! ## 1. Uses and reads -/

/-- There is a use for a read at most. -/
theorem length_uses_le (functions : List FunctionInfo) (events : List Event) (j : Nat) :
    ((List.range j).filterMap (useAt functions events)).length ≤
      ((events.take j).filter (·.isRead)).length := by
  induction j with
  | zero => exact Nat.le_refl 0
  | succ j ih =>
    rw [List.range_succ, List.filterMap_append, List.take_add_one, List.filter_append,
      List.length_append, List.length_append]
    refine Nat.add_le_add ih ?_
    cases hj : useAt functions events j with
    | none => simp [hj]
    | some x =>
      obtain ⟨name, line, -, he, -⟩ := useAt_eq_some_iff.mp hj
      simp [hj, he, Event.isRead]

/-- Edges from definitions lead to later nodes. -/
theorem source_lt_target (fe : FrontEnd) (functions : List FunctionInfo) (d : Document) {e : Edge}
    (he : e ∈ (synthesize fe functions d).edges) (hrelation : e.relation = some .defines) :
    e.source < e.target := by
  obtain ⟨j, u, hj⟩ := ((mem_uses_synthesize fe functions d).2 e).mp ⟨he, hrelation⟩
  obtain ⟨x, line, id, -, hlatest, -, rfl⟩ := useAt_eq_some_iff.mp hj
  obtain ⟨l, r, hl, -⟩ := List.lookup_eq_some_iff.mp (lookup_stateAt.mpr hlatest)
  have hk := known_stateAt functions (d.flow fe) j
  exact hk.sound.given id (hk.definitions (x, id) (by simp [hl]))

end DataFlow

/-! ## 2. Reading once -/

/-- Every occurrence of a name is read once, and never by what it is a value of. -/
structure IsReadOnce (fe : FrontEnd) (functions : List FunctionInfo) (d : Document) : Prop where
  /-- There are no more uses than nodes of the tree. -/
  size : ((DataFlow.synthesize fe functions d).nodesOf .useSite).length ≤ d.tree.size
  /-- Two reads are found at different nodes. -/
  occurrence : ∀ (i j : Nat) (a b : Node) (x y : String) (line line' : Nat),
    (fe.trace d d.root)[i]? = some (a, .read x line) →
    (fe.trace d d.root)[j]? = some (b, .read y line') → a.id = b.id → i = j
  /-- A read in the values of a definition comes before it, and is not linked to it. -/
  values : ∀ (i j : Nat) (n m : Node) (b : BoundName) (x : String) (line : Nat),
    (fe.trace d d.root)[i]? = some (n, .define b) →
    (fe.trace d d.root)[j]? = some (m, .read x line) →
    m.id ∈ (fe.valuesOf d n).flatMap (fe.visits d) →
      j < i ∧ ⟨DataFlow.idAt functions (d.flow fe) i, DataFlow.idAt functions (d.flow fe) j,
        some .defines⟩ ∉ (DataFlow.synthesize fe functions d).edges

variable {fe : FrontEnd} {d : Document}

/-- The reads of a document are those at its readers. -/
theorem length_reads_eq (fe : FrontEnd) (d : Document) :
    ((d.flow fe).filter (·.isRead)).length = (fe.readers d d.root).length := by
  rw [flow_eq_evaluate, FrontEnd.evaluate, FrontEnd.readers, List.length_map, List.filter_map,
    List.length_map]
  rfl

/-- There are no more uses than nodes of the tree, if the visits are different nodes of it. -/
theorem length_uses_le_size (functions : List FunctionInfo)
    (hsub : (fe.visits d d.root).Subperm d.root.ids) :
    ((DataFlow.synthesize fe functions d).nodesOf .useSite).length ≤ d.tree.size := by
  obtain ⟨-, -, huses, -⟩ := DataFlow.synthesize_shows fe functions d
  calc ((DataFlow.synthesize fe functions d).nodesOf .useSite).length
      = ((List.range (d.flow fe).length).filterMap
          (DataFlow.useAt functions (d.flow fe))).length := by
        rw [huses, (DataFlow.uses_stateAt _).1, List.length_map]
    _ ≤ ((d.flow fe).filter (·.isRead)).length := by
        have := DataFlow.length_uses_le functions (d.flow fe) (d.flow fe).length
        rwa [List.take_length] at this
    _ = (fe.readers d d.root).length := length_reads_eq fe d
    _ ≤ (fe.visits d d.root).length := by
        rw [FrontEnd.visits, List.length_map]
        exact (readers_sublist d.root).length_le
    _ ≤ d.root.ids.length := hsub.length_le
    _ ≤ d.tree.ids.length := d.root_ids_sublist.length_le
    _ = d.tree.size := d.tree.length_ids

/-- Of what is found at visits that are all different, two reads have two nodes. -/
theorem eq_of_read_id_eq {n a b : Node} (hn : (fe.visits d n).Nodup) {i j : Nat} {x y : String}
    {line line' : Nat} (hi : (fe.trace d n)[i]? = some (a, .read x line))
    (hj : (fe.trace d n)[j]? = some (b, .read y line')) (hab : a.id = b.id) : i = j := by
  have hreaders : ((fe.readers d n).map (·.id)).Nodup := hn.sublist ((readers_sublist n).map _)
  rw [FrontEnd.readers, List.Nodup, List.pairwise_map, List.pairwise_map, List.pairwise_filter,
    List.pairwise_iff_getElem] at hreaders
  obtain ⟨hil, hi⟩ := List.getElem?_eq_some_iff.mp hi
  obtain ⟨hjl, hj⟩ := List.getElem?_eq_some_iff.mp hj
  rcases Nat.lt_trichotomy i j with hij | hij | hij
  · exact absurd hab (by simpa [hi, hj, Event.isRead] using hreaders i j hil hjl hij)
  · exact hij
  · exact absurd hab.symm (by simpa [hi, hj, Event.isRead] using hreaders j i hjl hil hij)

/-- Of what is found at visits that are all different, the reads in the values of a definition come
before the definition. -/
theorem lt_of_read_in_values {n a b : Node} (hn : (fe.visits d n).Nodup) {i j : Nat}
    {bound : BoundName} {x : String} {line : Nat}
    (hi : (fe.trace d n)[i]? = some (a, .define bound))
    (hj : (fe.trace d n)[j]? = some (b, .read x line))
    (hb : b.id ∈ (fe.valuesOf d a).flatMap (fe.visits d)) : j < i := by
  have hpair := List.pairwise_iff_getElem.mp (trace_notFed hn)
  obtain ⟨hil, hi⟩ := List.getElem?_eq_some_iff.mp hi
  obtain ⟨hjl, hj⟩ := List.getElem?_eq_some_iff.mp hj
  rcases Nat.lt_trichotomy i j with hij | rfl | hij
  · have hfed := hpair i j hil hjl hij
    rw [hi, hj] at hfed
    exact absurd hb (hfed bound rfl)
  · rw [hi] at hj
    cases hj
  · exact hij

/-- **Nodes that are visited once are read once.** -/
theorem isReadOnce_of_nodup (functions : List FunctionInfo)
    (hsub : (fe.visits d d.root).Subperm d.root.ids) (hn : (fe.visits d d.root).Nodup) :
    IsReadOnce fe functions d := by
  refine ⟨length_uses_le_size functions hsub, ?_, ?_⟩
  · intro i j a b x y line line' hi hj hab
    exact eq_of_read_id_eq hn hi hj hab
  · intro i j n m b x line hi hj hm
    have hbefore := lt_of_read_in_values hn hi hj hm
    refine ⟨hbefore, fun hedge => ?_⟩
    have hlt := DataFlow.source_lt_target fe functions d hedge rfl
    exact absurd hlt (Nat.not_lt.mpr (DataFlow.stateAt_mono (Nat.le_of_lt hbefore)).2)

/-! ## 3. When nodes are visited once -/

/-- What the evaluation of a document visits has children that are told apart. -/
theorem nodup_children_of_mem_trail (hfe : fe.IsLawful) (hd : d.tree.ids.Nodup) {n : Node}
    (hn : n ∈ fe.trail d d.root) : n.children.Nodup :=
  nodup_children ((hd.sublist d.root_ids_sublist).sublist (ids_sublist_of_mem_trail hfe hn))

/-- **Nodes are visited once** exactly if no visited node updates something that it has to read.
Then every occurrence of a name is read once, and no definition is linked to a read in its
values. -/
theorem visits_once_iff (l : Language) (functions : List FunctionInfo) (d : Document)
    (hd : d.tree.ids.Nodup) :
    (∃ k, (Machine.turn l.frontEnd d)^[k] { agenda := [.visit d.root] } =
      ⟨l.frontEnd.trail d d.root, l.frontEnd.evaluate d d.root, []⟩) ∧
    (((l.frontEnd.trail d d.root).map (·.id)).Nodup ↔
      ∀ n ∈ l.frontEnd.trail d d.root, ¬ l.Rereads d n) ∧
    ((∀ n ∈ l.frontEnd.trail d d.root, ¬ l.Rereads d n) →
      IsReadOnce l.frontEnd functions d) := by
  have hfe := l.isLawful_frontEnd
  have hroot : d.root.ids.Nodup := hd.sublist d.root_ids_sublist
  have hrereads : (∀ n ∈ l.frontEnd.trail d d.root, ¬ l.frontEnd.Rereads d n) ↔
      ∀ n ∈ l.frontEnd.trail d d.root, ¬ l.Rereads d n :=
    forall₂_congr fun n hn => not_congr (l.rereads_iff (nodup_children_of_mem_trail hfe hd hn))
  have honce := (nodup_visits_iff hfe hroot).trans hrereads
  exact ⟨Machine.run l.frontEnd d, honce, fun hno => isReadOnce_of_nodup functions
    (visits_subperm hfe hroot (hrereads.mpr hno)) (honce.mpr hno)⟩

/-- The text of a name that is assigned, read and assigned again. -/
def increment : Document where
  language := .python
  text := "x = 1\nx = x + 1\n"
  tree := (Tree.ofRecords? [
    ⟨0, "module", 0, 0, 16, none⟩, ⟨1, "expression_statement", 0, 0, 5, none⟩,
    ⟨2, "assignment", 0, 0, 5, none⟩, ⟨3, "identifier", 0, 0, 1, "left"⟩,
    ⟨3, "=", 1, 2, 3, none⟩, ⟨3, "integer", 0, 4, 5, "right"⟩,
    ⟨1, "expression_statement", 0, 6, 15, none⟩, ⟨2, "assignment", 0, 6, 15, none⟩,
    ⟨3, "identifier", 0, 6, 7, "left"⟩, ⟨3, "=", 1, 8, 9, none⟩,
    ⟨3, "binary_operator", 0, 10, 15, "right"⟩, ⟨4, "identifier", 0, 10, 11, "left"⟩,
    ⟨4, "+", 1, 12, 13, "operator"⟩, ⟨4, "integer", 0, 14, 15, "right"⟩]).getD default

theorem visits_once_iff_increment :
    increment.tree.ids.Nodup ∧ IsReadOnce Python.frontEnd [] increment := by
  have hids : increment.tree.ids.Nodup := by decide +kernel
  obtain ⟨-, honce, hread⟩ := visits_once_iff .python [] increment hids
  have hrun := Machine.eq_of_agenda_isEmpty Python.frontEnd increment 20 (by decide +kernel)
  have hvisits : ((Python.frontEnd.trail increment increment.root).map (·.id)).Nodup := by
    have hvisited : Python.frontEnd.trail increment increment.root = _ :=
      (congrArg Machine.visited hrun).symm
    rw [hvisited]
    decide +kernel
  exact ⟨hids, hread (honce.mp hvisits)⟩

/-- The text of a list whose element is updated. -/
def augmented : Document where
  language := .python
  text := "a = [0]\na[0] += 1\n"
  tree := (Tree.ofRecords? [
    ⟨0, "module", 0, 0, 18, none⟩, ⟨1, "expression_statement", 0, 0, 7, none⟩,
    ⟨2, "assignment", 0, 0, 7, none⟩, ⟨3, "identifier", 0, 0, 1, "left"⟩,
    ⟨3, "=", 1, 2, 3, none⟩, ⟨3, "list", 0, 4, 7, "right"⟩, ⟨4, "[", 1, 4, 5, none⟩,
    ⟨4, "integer", 0, 5, 6, none⟩, ⟨4, "]", 1, 6, 7, none⟩,
    ⟨1, "expression_statement", 0, 8, 17, none⟩, ⟨2, "augmented_assignment", 0, 8, 17, none⟩,
    ⟨3, "subscript", 0, 8, 12, "left"⟩, ⟨4, "identifier", 0, 8, 9, "value"⟩,
    ⟨4, "[", 1, 9, 10, none⟩, ⟨4, "integer", 0, 10, 11, "subscript"⟩, ⟨4, "]", 1, 11, 12, none⟩,
    ⟨3, "+=", 1, 13, 15, "operator"⟩, ⟨3, "integer", 0, 16, 17, "right"⟩]).getD default

/-- The list is visited when the element is read and once more when it is assigned, so one
occurrence of its name has two uses. -/
theorem augmented_visited_twice :
    augmented.tree.ids.Nodup ∧
      ¬ ((Python.frontEnd.trail augmented augmented.root).map (·.id)).Nodup ∧
      Python.frontEnd.evaluate augmented augmented.root =
        [.define ⟨"a", 1, .localName⟩, .read "a" 2, .read "a" 2] ∧
      (DataFlow.synthesize Python.frontEnd [] augmented).nodesOf .useSite =
        [⟨1, "use", .useSite, "a", some 2⟩, ⟨2, "use", .useSite, "a", some 2⟩] := by
  have hrun := Machine.eq_of_agenda_isEmpty Python.frontEnd augmented 20 (by decide +kernel)
  have hevents : Python.frontEnd.evaluate augmented augmented.root =
      [.define ⟨"a", 1, .localName⟩, .read "a" 2, .read "a" 2] :=
    (congrArg Machine.found hrun).symm.trans (by decide +kernel)
  refine ⟨by decide +kernel, ?_, hevents, ?_⟩
  · have hvisited : Python.frontEnd.trail augmented augmented.root = _ :=
      (congrArg Machine.visited hrun).symm
    rw [hvisited]
    decide +kernel
  · rw [DataFlow.synthesize, flow_eq_evaluate, hevents]
    decide +kernel

end CodeDiagram
