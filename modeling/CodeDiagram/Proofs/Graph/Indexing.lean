/-
# Indexed graphs are graphs

The parts of an indexed graph repeat each other: the index and the set of edges say again what the
two lists say.  `IsCoherent` says that they agree.  Every operation keeps that, and does to the
plain graph inside what the plain operation does, as long as there are identities left
(`Reached.apply`); so a run of operations on a new graph does both (`run_isFaithful`).

No identity is given twice: those given so far ascend and are below the next one, and the nodes that
are left have some of them (`Reached`).
-/
import CodeDiagram.Graph.Indexed
import CodeDiagram.Proofs.Graph.Sound
import CodeDiagram.Proofs.Table

namespace CodeDiagram

open CodeDiagram.Graph

/-! ## 1. Operations on sound graphs -/

namespace Graph

theorem ids_retainConnected_sublist (g : Graph) : g.retainConnected.ids.Sublist g.ids :=
  List.filter_sublist.map _

/-- Removing the nodes that no edge touches leaves a sound graph. -/
theorem Sound.retainConnected {g : Graph} (h : g.Sound) : g.retainConnected.Sound where
  ascending := h.ascending.sublist g.ids_retainConnected_sublist
  given id hid := h.given id (g.ids_retainConnected_sublist.mem hid)
  nodup := h.nodup
  joined := by
    intro e he
    obtain ⟨hs, ht⟩ := h.joined e he
    exact ⟨mem_ids_retainConnected.mpr ⟨hs, touches_iff.mpr ⟨e, he, Or.inl rfl⟩⟩,
      mem_ids_retainConnected.mpr ⟨ht, touches_iff.mpr ⟨e, he, Or.inr rfl⟩⟩⟩

/-- An operation leaves a sound graph. -/
theorem Sound.apply {g : Graph} (h : g.Sound) (op : Operation) : (g.apply op).1.Sound := by
  cases op with
  | addNode type kind label line => exact h.addNode type kind label line
  | addEdge e => exact h.addEdge e
  | retainConnected => exact h.retainConnected

/-- So does a run of operations, however long. -/
theorem Sound.run {g : Graph} (h : g.Sound) (ops : List Operation) :
    (Operation.run Graph.apply g ops).1.Sound := by
  induction ops generalizing g with
  | nil => exact h
  | cons op ops ih => exact ih (h.apply op)

end Graph

namespace IndexedGraph

variable {t : IndexedGraph}

/-! ## 2. Parts that agree -/

theorem nextId_plain : t.plain.nextId = t.nextId := rfl

theorem nextId_addNode (hroom : t.nextId + 1 < idCount) (type : String) (kind : NodeKind)
    (label : String) (line : Option Nat) :
    (t.addNode type kind label line).1.nextId = t.nextId + 1 :=
  Nat.mod_eq_of_lt hroom

theorem apply_addNode (type : String) (kind : NodeKind) (label : String) (line : Option Nat) :
    t.apply (.addNode type kind label line) =
      ((t.addNode type kind label line).1, .node t.nextId) := rfl

theorem apply_addEdge (e : Edge) :
    t.apply (.addEdge e) = ((t.addEdge e).1, .edge (t.addEdge e).2) := rfl

theorem apply_retainConnected :
    t.apply .retainConnected = (t.retainConnected.1, .removed t.retainConnected.2) := rfl

/-- An index of nodes with different identities has the place of each. -/
theorem getElem?_ofList_mapIdx {nodes : List Vertex} (h : (nodes.map (·.id)).Nodup) (id : NodeId)
    (i : Nat) : (Std.HashMap.ofList (nodes.mapIdx fun i v => (v.id, i)))[id]? = some i ↔
      (nodes.map (·.id))[i]? = some id := by
  have hkeys : (nodes.mapIdx fun i v => (v.id, i)).map (·.1) = nodes.map (·.id) :=
    List.ext_getElem (by simp) (by simp)
  rw [getElem?_ofList (hkeys ▸ h), lookup_eq_some_iff_mem (hkeys ▸ h), List.mem_mapIdx,
    List.getElem?_eq_some_iff]
  constructor
  · rintro ⟨j, hj, hentry⟩
    obtain ⟨hid, rfl⟩ := Prod.mk.inj hentry
    exact ⟨by simpa using hj, by simpa using hid⟩
  · rintro ⟨hi, hid⟩
    exact ⟨i, by simpa using hi, by simpa using hid⟩

/-- The parts of an indexed graph agree: its graph is sound, the index has the place of each node
and of nothing else, and the set of edges has the edges. -/
structure IsCoherent (t : IndexedGraph) : Prop where
  sound : t.plain.Sound
  index : ∀ (id : NodeId) (i : Nat), t.index[id]? = some i ↔ t.plain.ids[i]? = some id
  seen : ∀ e, t.seen.contains e = true ↔ e ∈ t.edges

namespace IsCoherent

theorem of_empty : empty.IsCoherent where
  sound := .empty
  index id i := by simp [IndexedGraph.empty, plain, ids]
  seen e := by simp [IndexedGraph.empty]

/-- The index knows the nodes. -/
theorem contains_index (h : t.IsCoherent) (id : NodeId) :
    t.index.contains id = t.plain.hasNode id := by
  rw [Bool.eq_iff_iff, hasNode_eq_true, Std.HashMap.contains_eq_isSome_getElem?,
    Option.isSome_iff_exists, List.mem_iff_getElem?]
  exact exists_congr fun i => h.index id i

/-- The set of edges knows the edges. -/
theorem contains_seen (h : t.IsCoherent) (e : Edge) : t.seen.contains e = t.plain.hasEdge e := by
  rw [Bool.eq_iff_iff, h.seen]
  simp [Graph.hasEdge, plain]

/-- **Adding a node** keeps the parts in agreement. -/
theorem addNode (h : t.IsCoherent) (hroom : t.nextId + 1 < idCount) (type : String)
    (kind : NodeKind) (label : String) (line : Option Nat) :
    (t.addNode type kind label line).1.plain = (t.plain.addNode type kind label line).1 ∧
      (t.addNode type kind label line).1.IsCoherent := by
  have hplain : (t.addNode type kind label line).1.plain =
      (t.plain.addNode type kind label line).1 := by
    rw [IndexedGraph.addNode, Graph.addNode, plain, plain, Nat.mod_eq_of_lt hroom]
  refine ⟨hplain, ?_, ?_, h.seen⟩
  · rw [hplain]
    exact h.sound.addNode _ _ _ _
  · intro id i
    have hlen : t.nodes.length = t.plain.ids.length := by simp [plain, ids]
    rw [hplain, ids_addNode, IndexedGraph.addNode, Std.HashMap.getElem?_insert]
    by_cases hid : t.nextId = id
    · -- the new identity stands at the end and nowhere else
      subst hid
      have hnew : t.plain.ids[i]? ≠ some t.nextId :=
        fun hi => h.sound.nextId_notMem (List.mem_of_getElem? hi)
      rw [if_pos (beq_self_eq_true _), Option.some.injEq, hlen, nextId_plain]
      rcases Nat.lt_trichotomy i t.plain.ids.length with hi | rfl | hi
      · rw [List.getElem?_append_left hi]
        simp [hnew, Nat.ne_of_gt hi]
      · simp
      · rw [List.getElem?_eq_none (by simp; omega)]
        simp [Nat.ne_of_lt hi]
    · have hne : (t.nextId == id) = false := by simpa using hid
      rw [if_neg (by simp [hne]), h.index]
      rcases Nat.lt_or_ge i t.plain.ids.length with hi | hi
      · rw [List.getElem?_append_left hi]
      · rw [List.getElem?_append_right hi, List.getElem?_eq_none hi, List.getElem?_singleton,
          nextId_plain]
        split
        · simp [hid]
        · rfl

/-- An edge is added if it is new and joins nodes that are there: then it comes last.  Any other
changes nothing. -/
theorem addEdge_eq (h : t.IsCoherent) (e : Edge) : t.addEdge e =
    if t.plain.admits e
    then ({ t with edges := t.edges ++ [e], seen := t.seen.insert e }, true)
    else (t, false) := by
  rw [IndexedGraph.addEdge, Graph.admits, h.contains_index, h.contains_index, h.contains_seen]
  cases t.plain.hasNode e.source with
  | false => rfl
  | true =>
    cases t.plain.hasNode e.target with
    | false => rfl
    | true =>
      cases t.plain.hasEdge e with
      | false => rfl
      | true => rfl

/-- **Adding an edge** answers whether the plain graph admits it and keeps the parts in
agreement. -/
theorem addEdge (h : t.IsCoherent) (e : Edge) :
    (t.addEdge e).2 = t.plain.admits e ∧ (t.addEdge e).1.plain = t.plain.addEdge e ∧
      (t.addEdge e).1.IsCoherent := by
  cases hadm : t.plain.admits e with
  | false =>
    have hsame : t.addEdge e = (t, false) := by
      rw [h.addEdge_eq, hadm, if_neg Bool.false_ne_true]
    rw [hsame, Graph.addEdge, hadm, if_neg Bool.false_ne_true]
    exact ⟨rfl, rfl, h⟩
  | true =>
    have hnew : t.addEdge e =
        ({ t with edges := t.edges ++ [e], seen := t.seen.insert e }, true) := by
      rw [h.addEdge_eq, if_pos hadm]
    have hplain : t.plain.addEdge e = { t.plain with edges := t.edges ++ [e] } := by
      rw [Graph.addEdge, if_pos hadm]
      rfl
    have hsound := h.sound.addEdge e
    rw [hplain] at hsound
    rw [hnew]
    refine ⟨rfl, hplain.symm, hsound, h.index, fun f => ?_⟩
    rw [Std.HashSet.contains_insert, Bool.or_eq_true, beq_iff_eq, h.seen, List.mem_append,
      List.mem_singleton, or_comm, eq_comm]

/-- **Removing nodes** keeps the parts in agreement. -/
theorem retainConnected (h : t.IsCoherent) :
    t.retainConnected.1.plain = t.plain.retainConnected ∧ t.retainConnected.1.IsCoherent := by
  have hnodes : t.retainConnected.1.nodes = t.plain.retainConnected.nodes := by
    refine List.filter_congr fun v _ => ?_
    rw [Std.HashSet.contains_ofList, Bool.eq_iff_iff, List.contains_iff_mem, touches_iff,
      List.mem_flatMap]
    simp only [List.mem_cons, List.not_mem_nil, or_false, eq_comm]
    rfl
  have hplain : t.retainConnected.1.plain = t.plain.retainConnected :=
    Graph.ext hnodes rfl rfl
  refine ⟨hplain, hplain ▸ h.sound.retainConnected, fun id i => ?_, h.seen⟩
  exact getElem?_ofList_mapIdx (hplain ▸ h.sound.retainConnected).nodup_ids id i

/-! ## 3. Look-ups -/

/-- The index tells the place that a search of the nodes finds. -/
theorem indexOf?_eq (h : t.IsCoherent) (id : NodeId) : t.indexOf? id = t.plain.indexOf? id := by
  refine Option.ext fun i => ?_
  rw [Graph.indexOf?_eq_some_iff h.sound.nodup_ids]
  exact h.index id i

/-- The index tells the node that a search finds. -/
theorem node?_eq (h : t.IsCoherent) (id : NodeId) : t.node? id = t.plain.node? id := by
  calc t.node? id = (t.indexOf? id).bind (t.nodes[·]?) := rfl
    _ = (t.plain.indexOf? id).bind (t.plain.nodes[·]?) := by
      rw [h.indexOf?_eq]
      rfl
    _ = t.plain.node? id := List.find?_eq_bind_findIdx?_getElem?.symm

/-- The set of edges tells what a search finds. -/
theorem hasEdge_eq (h : t.IsCoherent) (e : Edge) : t.hasEdge e = t.plain.hasEdge e :=
  h.contains_seen e

end IsCoherent

/-! ## 4. Runs of operations -/

/-- The graphs to start from: the empty one and the placeholders. -/
inductive IsStart : IndexedGraph → Prop where
  | empty : IsStart .empty
  | placeholder (type : String) (kind : NodeKind) (label : String) :
    IsStart (.placeholder type kind label)

theorem IsStart.sound (h : t.IsStart) : t.plain.Sound := by
  cases h with
  | empty => exact .empty
  | placeholder type kind label => exact Sound.empty.addNode type kind label none

/-- How many nodes the operations add. -/
def additions (ops : List Operation) : Nat := ops.countP (·.isAddition)

theorem additions_cons (op : Operation) (ops : List Operation) :
    additions (op :: ops) = op.isAddition.toNat + additions ops := by
  rw [additions, List.countP_cons, Nat.add_comm]
  cases op.isAddition with
  | false => rfl
  | true => rfl

theorem run_cons {α : Type} (step : α → Operation → α × Answer) (a : α) (op : Operation)
    (ops : List Operation) : Operation.run step a (op :: ops) =
      ((Operation.run step (step a op).1 ops).1,
        (step a op).2 :: (Operation.run step (step a op).1 ops).2) := rfl

theorem filterMap_given?_cons (answer : Answer) (answers : List Answer) :
    (answer :: answers).filterMap Answer.given? =
      answer.given?.toList ++ answers.filterMap Answer.given? := by
  cases answer with
  | node id => rfl
  | edge isAdded => rfl
  | removed count => rfl

/-- A state of a run in which the identities `given` were given: they ascend and are below the next
one, and the nodes that are left have some of them. -/
structure Reached (t : IndexedGraph) (given : List NodeId) : Prop where
  coherent : t.IsCoherent
  ascending : given.Pairwise (· < ·)
  below : ∀ id ∈ given, id < t.nextId
  present : t.plain.ids.Sublist given

namespace Reached

variable {given : List NodeId}

/-- No identity is there before a run but that of a placeholder. -/
theorem of_isStart (h : t.IsStart) : t.Reached t.plain.ids := by
  have of_sound : t.IsCoherent → t.Reached t.plain.ids := fun hc =>
    ⟨hc, hc.sound.ascending, hc.sound.given, List.Sublist.refl _⟩
  cases h with
  | empty => exact of_sound .of_empty
  | placeholder type kind label =>
    exact of_sound (IsCoherent.of_empty.addNode (by decide) type kind label none).2

/-- Adding a node gives the next identity. -/
theorem addNode (h : t.Reached given) (hroom : t.nextId + 1 < idCount) (type : String)
    (kind : NodeKind) (label : String) (line : Option Nat) :
    (t.addNode type kind label line).1.Reached (given ++ [t.nextId]) := by
  obtain ⟨hplain, hcoherent⟩ := h.coherent.addNode hroom type kind label line
  refine ⟨hcoherent, ?_, ?_, ?_⟩
  · refine List.pairwise_append.mpr ⟨h.ascending, List.pairwise_singleton _ _, ?_⟩
    intro a ha b hb
    rw [List.mem_singleton.mp hb]
    exact h.below a ha
  · intro id hid
    rw [nextId_addNode hroom]
    rcases List.mem_append.mp hid with hid | hid
    · exact Nat.lt_succ_of_lt (h.below id hid)
    · rw [List.mem_singleton.mp hid]
      exact Nat.lt_succ_self _
  · rw [hplain, ids_addNode]
    exact h.present.append (List.Sublist.refl _)

/-- A state that has no new nodes gives no identity. -/
theorem of_sublist {t' : IndexedGraph} (h : t.Reached given) (hcoherent : t'.IsCoherent)
    (hnext : t'.nextId = t.nextId) (hids : t'.plain.ids.Sublist t.plain.ids) :
    t'.Reached (given ++ []) := by
  rw [List.append_nil]
  exact ⟨hcoherent, h.ascending, hnext.symm ▸ h.below, hids.trans h.present⟩

/-- **What one operation keeps**: it answers and does to the plain graph what the plain operation
does, and gives the next identity if it adds a node. -/
theorem apply (h : t.Reached given) (op : Operation)
    (hroom : t.nextId + op.isAddition.toNat < idCount) :
    Graph.apply t.plain op = ((t.apply op).1.plain, (t.apply op).2) ∧
      (t.apply op).1.nextId = t.nextId + op.isAddition.toNat ∧
      (t.apply op).1.Reached (given ++ (t.apply op).2.given?.toList) := by
  cases op with
  | addNode type kind label line =>
    obtain ⟨hplain, -⟩ := h.coherent.addNode hroom type kind label line
    refine ⟨?_, nextId_addNode hroom type kind label line, h.addNode hroom type kind label line⟩
    rw [apply_addNode, hplain]
    rfl
  | addEdge e =>
    obtain ⟨hanswer, hplain, hcoherent⟩ := h.coherent.addEdge e
    have hnext : (t.addEdge e).1.nextId = t.nextId := by
      rw [← nextId_plain, hplain, nextId_addEdge, nextId_plain]
    refine ⟨?_, hnext, h.of_sublist hcoherent hnext ?_⟩
    · rw [apply_addEdge, hplain, hanswer, Graph.apply]
    · rw [apply_addEdge, hplain, ids_addEdge]
  | retainConnected =>
    obtain ⟨hplain, hcoherent⟩ := h.coherent.retainConnected
    refine ⟨?_, rfl, h.of_sublist hcoherent rfl ?_⟩
    · rw [apply_retainConnected, hplain, Graph.apply, ← hplain]
      rfl
    · rw [apply_retainConnected, hplain]
      exact t.plain.ids_retainConnected_sublist

/-- **What a run keeps**: it answers and does to the plain graph what the plain run does, and the
identities it gives ascend. -/
theorem run (ops : List Operation) (h : t.Reached given)
    (hroom : t.nextId + additions ops < idCount) :
    Operation.run Graph.apply t.plain ops =
        ((Operation.run IndexedGraph.apply t ops).1.plain,
          (Operation.run IndexedGraph.apply t ops).2) ∧
      (Operation.run IndexedGraph.apply t ops).1.Reached
        (given ++ (Operation.run IndexedGraph.apply t ops).2.filterMap Answer.given?) := by
  induction ops generalizing t given with
  | nil => exact ⟨rfl, by simpa [Operation.run] using h⟩
  | cons op ops ih =>
    rw [additions_cons] at hroom
    have hfirst : t.nextId + op.isAddition.toNat < idCount :=
      Nat.lt_of_le_of_lt (Nat.add_le_add_left (Nat.le_add_right _ _) _) hroom
    obtain ⟨hplain, hnext, hreached⟩ := h.apply op hfirst
    rw [← Nat.add_assoc, ← hnext] at hroom
    obtain ⟨hrest, hrun⟩ := ih hreached hroom
    refine ⟨by simp only [Operation.run, hplain, hrest], ?_⟩
    rw [run_cons, filterMap_given?_cons, ← List.append_assoc]
    exact hrun

end Reached

/-- How an indexed graph stands to a run of operations that ended in it with the answers. -/
structure IsFaithful (start t : IndexedGraph) (ops : List Operation) (answers : List Answer) :
    Prop where
  /-- The parts agree. -/
  coherent : t.IsCoherent
  /-- The run of the plain graph ends in the plain graph, with the same answers. -/
  plain : Operation.run Graph.apply start.plain ops = (t.plain, answers)
  /-- An edge is added if it is new and joins nodes that are there. -/
  isAdded_iff : ∀ e, (t.addEdge e).2 = true ↔
    e.source ∈ t.plain.ids ∧ e.target ∈ t.plain.ids ∧ e ∉ t.edges
  /-- An edge that is added comes last. -/
  added : ∀ e, (t.addEdge e).2 = true →
    (t.addEdge e).1 = { t with edges := t.edges ++ [e], seen := t.seen.insert e }
  /-- An edge that is not added changes nothing. -/
  refused : ∀ e, (t.addEdge e).2 = false → (t.addEdge e).1 = t
  /-- The look-ups tell what a search finds. -/
  found : ∀ id, t.indexOf? id = t.plain.indexOf? id ∧ t.node? id = t.plain.node? id
  /-- So does the set of edges. -/
  hasEdge : ∀ e, t.hasEdge e = t.plain.hasEdge e
  /-- No identity is given twice, the next one included. -/
  ascending : (start.plain.ids ++ answers.filterMap Answer.given? ++ [t.nextId]).Pairwise (· < ·)
  /-- The nodes that are left have identities that were given. -/
  present : t.plain.ids.Sublist (start.plain.ids ++ answers.filterMap Answer.given?)

/-- **Runs**: while there are identities left (the node of a placeholder has taken one), a run of
operations on a new graph keeps the parts of an indexed graph in agreement, answers and does what
the plain run does, adds just the edges that are new and join nodes that are there, and gives no
identity twice. -/
theorem run_isFaithful {start : IndexedGraph} (hstart : start.IsStart) (ops : List Operation)
    (hroom : start.nextId + additions ops < idCount) :
    IsFaithful start (Operation.run IndexedGraph.apply start ops).1 ops
      (Operation.run IndexedGraph.apply start ops).2 := by
  obtain ⟨hplain, hreached⟩ := (Reached.of_isStart hstart).run ops hroom
  have hcoherent := hreached.coherent
  refine
    { coherent := hcoherent, plain := hplain
      isAdded_iff := fun e => ?_, added := fun e hadded => ?_, refused := fun e hrefused => ?_
      found := fun id => ⟨hcoherent.indexOf?_eq id, hcoherent.node?_eq id⟩
      hasEdge := hcoherent.hasEdge_eq, ascending := ?_, present := hreached.present }
  · rw [(hcoherent.addEdge e).1, admits_eq_true]
    rfl
  · rw [(hcoherent.addEdge e).1] at hadded
    rw [hcoherent.addEdge_eq, if_pos hadded]
  · rw [(hcoherent.addEdge e).1] at hrefused
    rw [hcoherent.addEdge_eq, hrefused, if_neg Bool.false_ne_true]
  · refine List.pairwise_append.mpr ⟨hreached.ascending, List.pairwise_singleton _ _, ?_⟩
    intro a ha b hb
    rw [List.mem_singleton.mp hb]
    exact hreached.below a ha

/-- An edge is added once, and the identity of a node that was removed is not given again. -/
theorem run_isFaithful_placeholder :
    let start := placeholder "info" .other "nothing yet"
    let ops : List Operation :=
      [.addNode "call" .call "f" (some 1), .addNode "call" .call "g" (some 2),
       .addEdge ⟨0, 1, some .contains⟩, .addEdge ⟨0, 1, some .contains⟩, .addEdge ⟨0, 7, none⟩,
       .retainConnected, .addEdge ⟨0, 2, none⟩, .addNode "call" .call "h" (some 3)]
    start.IsStart ∧ start.nextId + additions ops < idCount ∧
      IsFaithful start (Operation.run IndexedGraph.apply start ops).1 ops
        (Operation.run IndexedGraph.apply start ops).2 ∧
      (Operation.run IndexedGraph.apply start ops).2 =
        [.node 1, .node 2, .edge true, .edge false, .edge false, .removed 1, .edge false,
         .node 3] ∧
      (Operation.run IndexedGraph.apply start ops).1.plain.ids = [0, 1, 3] := by
  intro start ops
  have hstart : start.IsStart := .placeholder _ _ _
  have hroom : start.nextId + additions ops < idCount := by decide +kernel
  have hfaithful := run_isFaithful hstart ops hroom
  have hanswers : (Operation.run Graph.apply start.plain ops).2 =
      [.node 1, .node 2, .edge true, .edge false, .edge false, .removed 1, .edge false,
       .node 3] := by decide +kernel
  have hids : (Operation.run Graph.apply start.plain ops).1.ids = [0, 1, 3] := by decide +kernel
  rw [hfaithful.plain] at hanswers hids
  dsimp only at hanswers hids
  exact ⟨hstart, hroom, hfaithful, hanswers, hids⟩

end IndexedGraph

end CodeDiagram
