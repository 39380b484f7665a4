/-
# What removing nodes leaves alone

Removing the nodes that no edge touches moves the nodes that stay, but they keep their identities,
and everything that is told of edges stays as it was: which there are, how many end at a node, and
how far a node is from the roots (`IsTrimmed`).  The roots that go are just the nodes that go.

What is added later does not depend on it either: two graphs of which one is the other without some
nodes (`IsWithout`) answer alike as long as no edge is added to a node that is gone
(`IsWithout.run`).  Identities go on from where they were, since none is given twice.
-/
import CodeDiagram.Proofs.Graph.Distance
import CodeDiagram.Proofs.Graph.Indexing

namespace CodeDiagram

open CodeDiagram.Graph

namespace Graph

variable {g : Graph}

/-! ## 1. What stays -/

/-- The nodes that no edge touches, in order. -/
def loose (g : Graph) : List NodeId := g.ids.filter (!g.touches ·)

/-- The nodes that stay and those that go are all nodes. -/
theorem length_loose (g : Graph) : g.retainConnected.nodeCount + g.loose.length = g.nodeCount := by
  rw [← length_ids, ids_retainConnected, loose, ← List.length_eq_length_filter_add, length_ids]

/-- Removing nodes a second time removes none. -/
theorem retainConnected_retainConnected (g : Graph) :
    g.retainConnected.retainConnected = g.retainConnected :=
  retainConnected_eq_self fun _ hv => touches_iff.mp (List.mem_filter.mp hv).2

/-- **The roots that go are the nodes that go.** -/
theorem roots_retainConnected (g : Graph) :
    g.retainConnected.roots = g.roots.filter (g.retainConnected.hasNode ·) := by
  have htarget : g.retainConnected.isTarget = g.isTarget := rfl
  rw [roots, roots, htarget, ids_retainConnected, List.filter_filter, List.filter_filter]
  refine List.filter_congr fun id hid => ?_
  rw [Bool.and_comm, Bool.eq_iff_iff, Bool.and_eq_true, Bool.and_eq_true, hasNode_eq_true,
    mem_ids_retainConnected, and_iff_right hid]

theorem inDegrees_retainConnected {id : NodeId} (hid : id ∈ g.retainConnected.ids) :
    g.retainConnected.inDegrees.lookup id = g.inDegrees.lookup id := by
  have hdegree : g.retainConnected.inDegree = g.inDegree := rfl
  rw [inDegrees, inDegrees, hdegree, lookup_map_self, lookup_map_self, if_pos hid,
    if_pos (mem_ids_retainConnected.mp hid).1]

/-- A walk to a node that an edge touches starts at one. -/
theorem Walk.touches {a b : NodeId} {n : Nat} (hw : g.Walk a b n) (hb : g.touches b = true) :
    g.touches a = true := by
  induction hw with
  | nil => exact hb
  | snoc _ ht ih =>
    obtain ⟨e, he, hsource, -⟩ := mem_targets.mp ht
    exact ih (touches_iff.mpr ⟨e, he, Or.inl hsource⟩)

/-- Edges lead where they led. -/
theorem walk_retainConnected {a b : NodeId} {n : Nat} :
    g.retainConnected.Walk a b n ↔ g.Walk a b n := by
  have htargets : g.retainConnected.targets = g.targets := rfl
  constructor
  · exact Walk.map (g := g.retainConnected) (f := id) fun a b hb => htargets ▸ hb
  · exact Walk.map (g := g) (f := id) fun a b hb => htargets ▸ hb

/-- Walks from roots to a node that stays are the same. -/
theorem isFromRoot_retainConnected {id : NodeId} (hid : id ∈ g.retainConnected.ids) (n : Nat) :
    g.retainConnected.IsFromRoot id n ↔ g.IsFromRoot id n := by
  have htouched := (mem_ids_retainConnected.mp hid).2
  constructor
  · rintro ⟨r, hr, hw⟩
    rw [roots_retainConnected] at hr
    exact ⟨r, (List.mem_filter.mp hr).1, walk_retainConnected.mp hw⟩
  · rintro ⟨r, hr, hw⟩
    refine ⟨r, ?_, walk_retainConnected.mpr hw⟩
    rw [roots_retainConnected]
    refine List.mem_filter.mpr ⟨hr, hasNode_eq_true.mpr ?_⟩
    exact mem_ids_retainConnected.mpr ⟨(List.mem_filter.mp hr).1, hw.touches htouched⟩

/-- **Depths stay.** -/
theorem depth?_retainConnected (h : g.Sound) {id : NodeId} (hid : id ∈ g.retainConnected.ids) :
    g.retainConnected.depth? id = g.depth? id := by
  refine Option.ext fun n => ?_
  rw [depth?_eq_some_iff h.retainConnected.nodup_ids, depth?_eq_some_iff h.nodup_ids]
  simp only [isFromRoot_retainConnected hid]

/-! ## 2. What is added later -/

/-- One graph is another without some old nodes, which no edge touches. -/
structure IsWithout (gone : List NodeId) (g g' : Graph) : Prop where
  nodes : g'.nodes = g.nodes.filter fun v => !gone.contains v.id
  edges : g'.edges = g.edges
  nextId : g'.nextId = g.nextId
  old : ∀ id ∈ gone, id < g.nextId

/-- Edges are never removed. -/
theorem mem_edges_apply {e : Edge} (he : e ∈ g.edges) (op : Operation) :
    e ∈ (g.apply op).1.edges := by
  cases op with
  | addNode type kind label line => exact he
  | addEdge f => exact mem_edges_addEdge_of_mem he f
  | retainConnected => exact he

theorem mem_edges_run {e : Edge} (he : e ∈ g.edges) (ops : List Operation) :
    e ∈ (Operation.run Graph.apply g ops).1.edges := by
  induction ops generalizing g with
  | nil => exact he
  | cons op ops ih => exact ih (mem_edges_apply he op)

/-- Each node that is added takes an identity. -/
theorem nextId_run (g : Graph) (ops : List Operation) :
    (Operation.run Graph.apply g ops).1.nextId = g.nextId + IndexedGraph.additions ops := by
  induction ops generalizing g with
  | nil => rfl
  | cons op ops ih =>
    rw [IndexedGraph.run_cons, ih, IndexedGraph.additions_cons, ← Nat.add_assoc]
    cases op with
    | addNode type kind label line => rfl
    | addEdge e => simp [Graph.apply, Operation.isAddition]
    | retainConnected => rfl

namespace IsWithout

variable {gone : List NodeId} {g' : Graph}

/-- A graph is without the nodes that were removed. -/
theorem of_retainConnected (h : g.Sound) : IsWithout g.loose g g.retainConnected where
  nodes := by
    refine List.filter_congr fun v hv => ?_
    have hid : v.id ∈ g.ids := List.mem_map_of_mem hv
    simp [loose, hid]
  edges := rfl
  nextId := rfl
  old := fun id hid => h.given id (List.mem_filter.mp hid).1

theorem mem_ids (h : IsWithout gone g g') {id : NodeId} :
    id ∈ g'.ids ↔ id ∈ g.ids ∧ id ∉ gone := by
  have hids : g'.ids = g.ids.filter fun id => !gone.contains id := by
    rw [ids, h.nodes, ids, List.filter_map]
    rfl
  rw [hids, List.mem_filter]
  simp

/-- The two graphs admit the same edges, but for those of nodes that are gone. -/
theorem admits_iff (h : IsWithout gone g g') {e : Edge} :
    g'.admits e = true ↔ g.admits e = true ∧ e.source ∉ gone ∧ e.target ∉ gone := by
  rw [admits_eq_true, admits_eq_true, h.mem_ids, h.mem_ids, h.edges]
  tauto

/-- **What one operation keeps**: the answer is the same, and so are the graphs but for the nodes
that are gone. -/
theorem apply (h : IsWithout gone g g') {op : Operation} (hop : op ≠ .retainConnected)
    (hfree : ∀ e ∈ (g.apply op).1.edges, e.source ∉ gone ∧ e.target ∉ gone) :
    (g'.apply op).2 = (g.apply op).2 ∧ IsWithout gone (g.apply op).1 (g'.apply op).1 := by
  cases op with
  | addNode type kind label line =>
    have hnew : g.nextId ∉ gone := fun hmem => Nat.lt_irrefl _ (h.old _ hmem)
    refine ⟨congrArg Answer.node h.nextId, ?_, h.edges, congrArg (· + 1) h.nextId, ?_⟩
    · simp [Graph.apply, h.nodes, h.nextId, hnew]
    · exact fun id hid => Nat.lt_succ_of_lt (h.old id hid)
  | addEdge e =>
    have hsame : g'.admits e = g.admits e := by
      rw [Bool.eq_iff_iff, h.admits_iff]
      refine and_iff_left_of_imp fun hadm => hfree e ?_
      rw [Graph.apply, edges_addEdge_of_admits hadm]
      exact List.mem_append_right _ List.mem_cons_self
    refine ⟨congrArg Answer.edge hsame, ?_⟩
    simp only [Graph.apply, addEdge, hsame]
    split
    · exact ⟨h.nodes, congrArg (· ++ [e]) h.edges, h.nextId, h.old⟩
    · exact h
  | retainConnected => exact absurd rfl hop

/-- **What a run keeps**: the answers are the same, so are the edges, and the nodes are those that
are not gone. -/
theorem run (more : List Operation) (h : IsWithout gone g g')
    (hmore : ∀ op ∈ more, op ≠ .retainConnected)
    (hfree : ∀ e ∈ (Operation.run Graph.apply g more).1.edges, e.source ∉ gone ∧ e.target ∉ gone) :
    (Operation.run Graph.apply g' more).2 = (Operation.run Graph.apply g more).2 ∧
      IsWithout gone (Operation.run Graph.apply g more).1
        (Operation.run Graph.apply g' more).1 := by
  induction more generalizing g g' with
  | nil => exact ⟨rfl, h⟩
  | cons op more ih =>
    obtain ⟨hop, hmore⟩ := List.forall_mem_cons.mp hmore
    obtain ⟨hanswer, hfirst⟩ := h.apply hop fun e he => hfree e (mem_edges_run he more)
    obtain ⟨hanswers, hrest⟩ := ih hfirst hmore hfree
    refine ⟨?_, hrest⟩
    rw [IndexedGraph.run_cons, IndexedGraph.run_cons, hanswer, hanswers]

end IsWithout

/-! ## 3. All that is left alone -/

/-- How the graph that is left stands to the graph from which some nodes were removed. -/
structure IsTrimmed (g g' : Graph) (count : Nat) : Prop where
  /-- The nodes that stay are as they were and in order: those that an edge touches. -/
  nodes : g'.nodes.Sublist g.nodes
  mem_nodes : ∀ v, v ∈ g'.nodes ↔ v ∈ g.nodes ∧ ∃ e ∈ g.edges, e.source = v.id ∨ e.target = v.id
  count : g'.nodeCount + count = g.nodeCount
  gone : ∀ id, id ∈ g.loose ↔ id ∈ g.ids ∧ id ∉ g'.ids
  edges : g'.edges = g.edges
  hasEdge : ∀ e, g'.hasEdge e = g.hasEdge e
  roots : g'.roots = g.roots.filter (g'.hasNode ·)
  degree : ∀ id ∈ g'.ids, g'.inDegrees.lookup id = g.inDegrees.lookup id
  depth : ∀ id ∈ g'.ids, g'.depth? id = g.depth? id
  place : ∀ id i, g'.indexOf? id = some i ↔ g'.ids[i]? = some id
  again : g'.apply .retainConnected = (g', .removed 0)
  /-- Nodes and edges that are added later get the same answers from both, if no edge is added to a
  node that is gone. -/
  continues : ∀ more : List Operation, (∀ op ∈ more, op ≠ .retainConnected) →
    (∀ e ∈ (Operation.run Graph.apply g more).1.edges, e.source ∉ g.loose ∧ e.target ∉ g.loose) →
    (Operation.run Graph.apply g' more).2 = (Operation.run Graph.apply g more).2 ∧
      IsWithout g.loose (Operation.run Graph.apply g more).1 (Operation.run Graph.apply g' more).1

/-- **Removing nodes** from a sound graph. -/
theorem Sound.isTrimmed (h : g.Sound) :
    IsTrimmed g g.retainConnected (g.nodeCount - g.retainConnected.nodeCount) where
  nodes := List.filter_sublist
  mem_nodes := by
    intro v
    rw [← touches_iff]
    exact List.mem_filter
  count := by
    have := g.length_loose
    omega
  gone := by
    intro id
    rw [loose, List.mem_filter, mem_ids_retainConnected]
    simp +contextual
  edges := rfl
  hasEdge := fun _ => rfl
  roots := roots_retainConnected g
  degree := fun _ => inDegrees_retainConnected
  depth := fun _ => depth?_retainConnected h
  place := fun _ _ => indexOf?_eq_some_iff h.retainConnected.nodup_ids
  again := by
    rw [Graph.apply, retainConnected_retainConnected, Nat.sub_self]
  continues := (IsWithout.of_retainConnected h).run

end Graph

namespace IndexedGraph

variable {t : IndexedGraph} {given : List NodeId}

/-- An indexed graph removes nodes like the plain graph inside, and goes on like it afterwards. -/
structure TrimsAlike (t : IndexedGraph) : Prop where
  plain : t.retainConnected.1.plain = t.plain.retainConnected
  count : t.retainConnected.2 = t.plain.nodeCount - t.plain.retainConnected.nodeCount
  hasEdge : ∀ e, t.retainConnected.1.hasEdge e = t.hasEdge e
  /-- The index tells where the nodes stand now. -/
  place : ∀ id i, t.retainConnected.1.indexOf? id = some i ↔
    (t.retainConnected.1.nodes.map (·.id))[i]? = some id
  again : t.retainConnected.1.retainConnected.1.plain = t.retainConnected.1.plain ∧
    t.retainConnected.1.retainConnected.2 = 0
  continues : ∀ more, t.nextId + additions more < idCount →
    (Operation.run IndexedGraph.apply t more).map IndexedGraph.plain id =
        Operation.run Graph.apply t.plain more ∧
      (Operation.run IndexedGraph.apply t.retainConnected.1 more).map IndexedGraph.plain id =
        Operation.run Graph.apply t.plain.retainConnected more

theorem Reached.trimsAlike (h : t.Reached given) (hroom : t.nextId < idCount) :
    t.TrimsAlike := by
  obtain ⟨hplain, hcoherent⟩ := h.coherent.retainConnected
  obtain ⟨-, -, hreached⟩ := h.apply .retainConnected hroom
  rw [apply_retainConnected] at hreached
  have hagain := hcoherent.retainConnected.1
  rw [hplain, retainConnected_retainConnected] at hagain
  refine ⟨hplain, ?_, fun _ => rfl, hcoherent.index, ⟨hagain.trans hplain.symm, ?_⟩, ?_⟩
  · rw [← hplain]
    rfl
  · have hnodes := congrArg Graph.nodeCount (hagain.trans hplain.symm)
    exact Nat.sub_eq_zero_of_le (Nat.le_of_eq hnodes.symm)
  · intro more hmore
    refine ⟨?_, ?_⟩
    · rw [(h.run more hmore).1, Prod.map, id]
    · rw [← hplain, (hreached.run more hmore).1, Prod.map, id]

/-- **Removing nodes** from any graph that operations make: the nodes that an edge touches stay as
they were; so does all that is told of edges; roots only go with their nodes; places are the new
ones; and what is added later, but for edges to the nodes that are gone, is answered as if nothing
had been removed.  While there are identities left the graph with an index does the same. -/
theorem run_isTrimmed {start : IndexedGraph} (hstart : start.IsStart) (ops : List Operation) :
    let g := (Operation.run Graph.apply start.plain ops).1
    let t := (Operation.run IndexedGraph.apply start ops).1
    (∃ count, g.apply .retainConnected = (g.retainConnected, .removed count) ∧
      IsTrimmed g g.retainConnected count) ∧
      (start.nextId + additions ops < idCount → t.plain = g ∧ t.TrimsAlike) := by
  intro g t
  refine ⟨⟨_, rfl, (hstart.sound.run ops).isTrimmed⟩, fun hroom => ?_⟩
  obtain ⟨hplain, hreached⟩ := (Reached.of_isStart hstart).run ops hroom
  have hsame : t.plain = g := (congrArg Prod.fst hplain).symm
  refine ⟨hsame, hreached.trimsAlike ?_⟩
  rw [← nextId_plain, hsame, nextId_run]
  exact hroom

/-- The first and the last of four nodes are joined, so the others go.  What follows gets the
identities and the answers that it gets if they stay. -/
theorem run_isTrimmed_two :
    let start := IndexedGraph.empty
    let ops : List Operation :=
      [.addNode "a" .other "a" none, .addNode "b" .other "b" none, .addNode "c" .other "c" none,
       .addNode "d" .other "d" none, .addEdge ⟨0, 3, some .calls⟩]
    let more : List Operation :=
      [.addNode "e" .other "e" none, .addEdge ⟨3, 4, none⟩, .addEdge ⟨3, 4, none⟩]
    let g := (Operation.run Graph.apply start.plain ops).1
    start.IsStart ∧ start.nextId + additions ops < idCount ∧
      IsTrimmed g g.retainConnected 2 ∧
      (Operation.run IndexedGraph.apply start ops).1.TrimsAlike ∧
      (∀ op ∈ more, op ≠ .retainConnected) ∧
      (∀ e ∈ (Operation.run Graph.apply g more).1.edges,
        e.source ∉ g.loose ∧ e.target ∉ g.loose) ∧
      g.retainConnected.ids = [0, 3] ∧ g.retainConnected.indexOf? 3 = some 1 ∧
      (Operation.run Graph.apply g.retainConnected more).2 =
        [.node 4, .edge true, .edge false] := by
  intro start ops more g
  have hstart : start.IsStart := .empty
  have hroom : start.nextId + additions ops < idCount := by decide +kernel
  obtain ⟨⟨count, hanswer, htrimmed⟩, hindexed⟩ := run_isTrimmed hstart ops
  have hcount : g.apply .retainConnected = (g.retainConnected, .removed 2) := by decide +kernel
  obtain rfl : count = 2 := by
    rw [hcount] at hanswer
    exact (Answer.removed.inj (Prod.mk.inj hanswer).2).symm
  have hmore : ∀ op ∈ more, op ≠ .retainConnected := by decide +kernel
  have hfree : ∀ e ∈ (Operation.run Graph.apply g more).1.edges,
      e.source ∉ g.loose ∧ e.target ∉ g.loose := by decide +kernel
  refine ⟨hstart, hroom, htrimmed, (hindexed hroom).2, hmore, hfree, by decide +kernel,
    by decide +kernel, ?_⟩
  rw [(htrimmed.continues more hmore hfree).1]
  decide +kernel

end IndexedGraph

end CodeDiagram
