/-
# What links do to a call graph

A call graph grows by declared functions and then by linked calls.  Two invariants describe it:

* `CallGraph.Knows` says that its table of names and its global caller are what the nodes of the
  graph say, and that a function has an edge of its own, the one to its exit;
* `CallGraph.Linked` says that its `calls` edges are those of the calls that were linked so far.

Declaring a function keeps the first (`Knows.declare`), linking a call keeps both
(`Knows.link`, `Linked.link`).
-/
import CodeDiagram.Diagram.CallGraph
import CodeDiagram.Proofs.Graph.Sound
import CodeDiagram.Proofs.Table

namespace CodeDiagram.CallGraph

variable {c : CallGraph} {names : List String}

/-! ## 1. Declared functions -/

theorem nodesOf_framed_function (g : Graph) (f : FunctionInfo) :
    (framed g f).nodesOf .function =
      g.nodesOf .function ++ [⟨g.nextId, "function", .function, f.name, some f.line⟩] := by
  simp [framed, Graph.nodesOf_addNode]

theorem nodesOf_framed_globalCaller (g : Graph) (f : FunctionInfo) :
    (framed g f).nodesOf .globalCaller = g.nodesOf .globalCaller := by
  simp [framed, Graph.nodesOf_addNode]

/-- A function gets an edge from its entry and one to its exit. -/
theorem mem_edges_framed {g : Graph} {f : FunctionInfo} {e : Graph.Edge} :
    e ∈ (framed g f).edges ↔ (e ∈ g.edges ∨ e = ⟨g.nextId + 1, g.nextId, some .flow⟩) ∨
      e = ⟨g.nextId, g.nextId + 2, some .flow⟩ := by
  simp only [framed]
  rw [Graph.mem_edges_addEdge (by simp) (by simp), Graph.mem_edges_addEdge (by simp) (by simp)]
  simp

theorem sound_framed {g : Graph} (h : g.Sound) (f : FunctionInfo) : (framed g f).Sound :=
  ((((h.addNode _ _ _ _).addNode _ _ _ _).addNode _ _ _ _).addEdge _).addEdge _

/-- The graph has one node for each of the names, and knows it. -/
structure Knows (c : CallGraph) (names : List String) : Prop where
  sound : c.graph.Sound
  functions : c.functions = (c.graph.nodesOf .function).map fun v => (v.label, v.id)
  names : ∀ name, name ∈ c.functions.map (·.1) ↔ name ∈ names
  nodup : (c.functions.map (·.1)).Nodup
  global : c.global.toList = (c.graph.nodesOf .globalCaller).map (·.id)
  flow : ∀ v ∈ c.graph.nodesOf .function, ∃ e ∈ c.graph.edges, e.source = v.id

theorem knows_empty : Knows {} [] where
  sound := .empty
  functions := rfl
  names := by simp
  nodup := List.nodup_nil
  global := rfl
  flow := by simp [Graph.empty, Graph.nodesOf]

/-- **Declaring a function** makes its name known. -/
theorem Knows.declare (h : c.Knows names) (f : FunctionInfo) :
    (c.declare f).Knows (names ++ [f.name]) := by
  unfold CallGraph.declare
  split
  · rename_i hsome
    refine { h with names := fun name => ?_ }
    rw [h.names, List.mem_append, List.mem_singleton, iff_self_or]
    rintro rfl
    exact (h.names f.name).mp (lookup_isSome_iff_mem.mp hsome)
  · rename_i hsome
    rw [lookup_isSome_iff_mem] at hsome
    refine ⟨sound_framed h.sound f, ?_, ?_, ?_, ?_, ?_⟩
    · rw [nodesOf_framed_function, List.map_append, ← h.functions]
      rfl
    · intro name
      rw [List.map_append, List.mem_append, h.names, List.mem_append]
      rfl
    · rw [List.map_append, List.map_singleton, ← List.concat_eq_append]
      exact h.nodup.concat hsome
    · rw [nodesOf_framed_globalCaller]
      exact h.global
    · intro v hv
      rw [nodesOf_framed_function] at hv
      rcases List.mem_append.mp hv with hv | hv
      · obtain ⟨e, he, hsource⟩ := h.flow v hv
        exact ⟨e, mem_edges_framed.mpr (Or.inl (Or.inl he)), hsource⟩
      · rw [List.mem_singleton.mp hv]
        exact ⟨_, mem_edges_framed.mpr (Or.inr rfl), rfl⟩

/-- A name that is looked up is the label of the node that is found. -/
theorem Knows.lookup_eq_some_iff (h : c.Knows names) {name : String} {id : NodeId} :
    c.functions.lookup name = some id ↔
      ∃ v ∈ c.graph.nodesOf .function, v.label = name ∧ v.id = id := by
  rw [lookup_eq_some_iff_mem h.nodup, h.functions, List.mem_map]
  simp only [Prod.mk.injEq]

/-- The node of a name is there. -/
theorem Knows.mem_ids_of_lookup (h : c.Knows names) {name : String} {id : NodeId}
    (hid : c.functions.lookup name = some id) : id ∈ c.graph.ids := by
  obtain ⟨v, hv, -, rfl⟩ := h.lookup_eq_some_iff.mp hid
  exact List.mem_map_of_mem (Graph.mem_nodesOf.mp hv).1

/-- The global caller is there if it is known. -/
theorem Knows.global_eq_some_iff (h : c.Knows names) {id : NodeId} :
    c.global = some id ↔ ∃ v ∈ c.graph.nodesOf .globalCaller, v.id = id := by
  rw [← Option.mem_toList, h.global, List.mem_map]

/-! ## 2. The ends of a call -/

/-- The node that a call in a scope comes from, as far as it is known. -/
def caller? (c : CallGraph) : Scope → Option NodeId
  | .outermost => c.global
  | .inside name => name.bind (c.functions.lookup ·)

/-- The node that a call leads to. -/
def callee? (c : CallGraph) (site : CallSite) : Option NodeId :=
  site.callee.bind (c.functions.lookup ·)

theorem Knows.mem_ids_of_caller? (h : c.Knows names) {scope : Scope} {id : NodeId}
    (hid : c.caller? scope = some id) : id ∈ c.graph.ids := by
  cases scope with
  | outermost =>
    obtain ⟨v, hv, rfl⟩ := h.global_eq_some_iff.mp hid
    exact List.mem_map_of_mem (Graph.mem_nodesOf.mp hv).1
  | inside name =>
    obtain ⟨name, -, hname⟩ := Option.bind_eq_some_iff.mp hid
    exact h.mem_ids_of_lookup hname

theorem Knows.mem_ids_of_callee? (h : c.Knows names) {site : CallSite} {id : NodeId}
    (hid : c.callee? site = some id) : id ∈ c.graph.ids := by
  obtain ⟨name, -, hname⟩ := Option.bind_eq_some_iff.mp hid
  exact h.mem_ids_of_lookup hname

/-- The `calls` edges are those of some calls, and calls from outside have a caller. -/
structure Linked (c : CallGraph) (sites : List CallSite) : Prop where
  calls : ∀ a b, ⟨a, b, some .calls⟩ ∈ c.graph.edges ↔
    a ≠ b ∧ ∃ site ∈ sites, c.caller? site.scope = some a ∧ c.callee? site = some b
  outside : ∀ site ∈ sites, site.scope = .outermost → (c.callee? site).isSome →
    c.global.isSome

/-! ## 3. Adding an edge -/

variable {sites : List CallSite} {caller callee : NodeId}

theorem Knows.connect (h : c.Knows names) (caller callee : NodeId) :
    (c.connect caller callee).Knows names := by
  unfold CallGraph.connect
  split
  · exact h
  · refine ⟨h.sound.addEdge _, ?_, h.names, h.nodup, ?_, ?_⟩
    · rw [Graph.nodesOf_addEdge]
      exact h.functions
    · rw [Graph.nodesOf_addEdge]
      exact h.global
    · intro v hv
      rw [Graph.nodesOf_addEdge] at hv
      obtain ⟨e, he, hsource⟩ := h.flow v hv
      exact ⟨e, Graph.mem_edges_addEdge_of_mem he _, hsource⟩

/-- **Connecting the ends of a call** adds its edge. -/
theorem Linked.connect (hk : c.Knows names) (h : c.Linked sites) {site : CallSite}
    (hcaller : c.caller? site.scope = some caller) (hcallee : c.callee? site = some callee) :
    (c.connect caller callee).Linked (sites ++ [site]) := by
  have hedges : ∀ a b, ⟨a, b, some .calls⟩ ∈ (c.connect caller callee).graph.edges ↔
      ⟨a, b, some .calls⟩ ∈ c.graph.edges ∨ a ≠ b ∧ a = caller ∧ b = callee := by
    intro a b
    unfold CallGraph.connect
    split
    · rename_i hsame
      subst hsame
      constructor
      · exact Or.inl
      · rintro (hold | ⟨hne, rfl, rfl⟩)
        · exact hold
        · exact absurd rfl hne
    · rename_i hne
      rw [Graph.mem_edges_addEdge (hk.mem_ids_of_caller? hcaller) (hk.mem_ids_of_callee? hcallee)]
      simp only [Graph.Edge.mk.injEq, and_true]
      constructor
      · rintro (hold | ⟨rfl, rfl⟩)
        · exact Or.inl hold
        · exact Or.inr ⟨hne, rfl, rfl⟩
      · rintro (hold | ⟨-, rfl, rfl⟩)
        · exact Or.inl hold
        · exact Or.inr ⟨rfl, rfl⟩
  have hends : (c.connect caller callee).global = c.global ∧
      (c.connect caller callee).functions = c.functions := by
    unfold CallGraph.connect
    split <;> exact ⟨rfl, rfl⟩
  have hcallers : ∀ scope, (c.connect caller callee).caller? scope = c.caller? scope := by
    intro scope
    cases scope with
    | outermost => exact hends.1
    | inside name => rw [caller?, caller?, hends.2]
  have hcallees : ∀ site, (c.connect caller callee).callee? site = c.callee? site := by
    intro site
    rw [callee?, callee?, hends.2]
  refine ⟨fun a b => ?_, fun s hs hout hsome => ?_⟩
  · simp only [hedges, h.calls, hcallers, hcallees, List.mem_append, List.mem_singleton]
    constructor
    · rintro (⟨hne, s, hs, hrest⟩ | ⟨hne, rfl, rfl⟩)
      · exact ⟨hne, s, Or.inl hs, hrest⟩
      · exact ⟨hne, site, Or.inr rfl, hcaller, hcallee⟩
    · rintro ⟨hne, s, hs | rfl, ha, hb⟩
      · exact Or.inl ⟨hne, s, hs, ha, hb⟩
      · exact Or.inr ⟨hne, Option.some.inj (ha.symm.trans hcaller),
          Option.some.inj (hb.symm.trans hcallee)⟩
  · rw [hends.1]
    rw [hcallees] at hsome
    rcases List.mem_append.mp hs with hs | hs
    · exact h.outside s hs hout hsome
    · rw [List.mem_singleton] at hs
      rw [hs] at hout
      rw [hout] at hcaller
      rw [show c.global = some caller from hcaller]
      rfl

/-- A call without a known end adds nothing. -/
theorem Linked.concat (h : c.Linked sites) {site : CallSite}
    (hno : c.callee? site = none ∨ site.scope ≠ .outermost ∧ c.caller? site.scope = none) :
    c.Linked (sites ++ [site]) := by
  refine ⟨fun a b => ?_, fun s hs hout hsome => ?_⟩
  · rw [h.calls]
    simp only [List.mem_append, List.mem_singleton]
    constructor
    · rintro ⟨hne, s, hs, hrest⟩
      exact ⟨hne, s, Or.inl hs, hrest⟩
    · rintro ⟨hne, s, hs | rfl, ha, hb⟩
      · exact ⟨hne, s, hs, ha, hb⟩
      · rcases hno with hno | ⟨-, hno⟩
        · rw [hno] at hb
          cases hb
        · rw [hno] at ha
          cases ha
  · rcases List.mem_append.mp hs with hs | hs
    · exact h.outside s hs hout hsome
    · rw [List.mem_singleton] at hs
      subst hs
      rcases hno with hno | ⟨hno, -⟩
      · rw [hno] at hsome
        cases hsome
      · exact absurd hout hno

/-! ## 4. The global caller -/

/-- The global caller is known once it is asked for. -/
theorem global_withGlobal (c : CallGraph) : c.withGlobal.1.global = some c.withGlobal.2 := by
  unfold withGlobal
  split
  · assumption
  · rfl

theorem functions_withGlobal (c : CallGraph) : c.withGlobal.1.functions = c.functions := by
  unfold withGlobal
  split <;> rfl

theorem Knows.withGlobal (h : c.Knows names) : c.withGlobal.1.Knows names := by
  unfold CallGraph.withGlobal
  split
  · exact h
  · rename_i hnone
    have hempty : (c.graph.nodesOf .globalCaller).map (·.id) = [] := by
      rw [← h.global, hnone]
      rfl
    refine ⟨h.sound.addNode _ _ _ _, ?_, h.names, h.nodup, ?_, ?_⟩
    · rw [Graph.nodesOf_addNode, h.functions]
      simp
    · rw [Graph.nodesOf_addNode, List.map_append, hempty]
      rfl
    · intro v hv
      rw [Graph.nodesOf_addNode] at hv
      exact h.flow v (by simpa using hv)

/-- No call needed the global caller before it is there. -/
theorem Linked.withGlobal (h : c.Linked sites) : c.withGlobal.1.Linked sites := by
  unfold CallGraph.withGlobal
  split
  · exact h
  · rename_i hnone
    refine ⟨fun a b => (h.calls a b).trans ?_, fun _ _ _ _ => rfl⟩
    refine and_congr_right fun _ => exists_congr fun s => and_congr_right fun hs => ?_
    refine and_congr_left fun hb => ?_
    cases hscope : s.scope with
    | inside name => rfl
    | outermost =>
      have hglobal := h.outside s hs hscope (by
        rw [show c.callee? s = some b from hb]
        rfl)
      rw [hnone] at hglobal
      cases hglobal

/-! ## 5. Linking -/

/-- **Linking a call** keeps what is known. -/
theorem Knows.link (h : c.Knows names) (site : CallSite) : (c.link site).Knows names := by
  unfold CallGraph.link
  split
  · exact h
  · split
    · exact h.withGlobal.connect _ _
    · split
      · exact h.connect _ _
      · exact h

/-- **Linking a call** adds its edge, if both of its ends are known and different. -/
theorem Linked.link (hk : c.Knows names) (h : c.Linked sites) (site : CallSite) :
    (c.link site).Linked (sites ++ [site]) := by
  unfold CallGraph.link
  split
  · rename_i hnone
    exact h.concat (Or.inl hnone)
  · rename_i callee hcallee
    split
    · rename_i hscope
      refine Linked.connect hk.withGlobal h.withGlobal ?_ ?_
      · rw [hscope]
        exact c.global_withGlobal
      · rw [callee?, functions_withGlobal]
        exact hcallee
    · rename_i name hscope
      split
      · rename_i caller hcaller
        refine Linked.connect hk h ?_ hcallee
        rw [hscope]
        exact hcaller
      · rename_i hcaller
        refine h.concat (Or.inr ?_)
        rw [hscope]
        exact ⟨Scope.noConfusion, hcaller⟩

/-- **The run**: linking some calls adds the edges of these. -/
theorem foldl_link {more : List CallSite} (hk : c.Knows names) (h : c.Linked sites) :
    (more.foldl link c).Knows names ∧ (more.foldl link c).Linked (sites ++ more) := by
  induction more generalizing c sites with
  | nil =>
    rw [List.append_nil]
    exact ⟨hk, h⟩
  | cons site more ih =>
    have := ih (hk.link site) (h.link hk site)
    rwa [List.append_assoc, List.singleton_append] at this

end CodeDiagram.CallGraph
