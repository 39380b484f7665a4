/-
# The calls of a document

The call graph of a document has an edge between two functions exactly when a call of the one
stands in the other, with no function in between, and an edge from the global caller exactly when a
call stands in no function at all (`CallGraph.synthesize_isCallGraphOf`).

`Sites.lean` says which calls there are and in which scope they stand, `Linking.lean` which edges
they make.  What is left is to read a scope as the innermost function around a call.
-/
import CodeDiagram.FrontEnd.Python
import CodeDiagram.Proofs.CallGraph.Linking
import CodeDiagram.Proofs.CallGraph.Sites

namespace CodeDiagram.CallGraph

open Syntax

variable {fe : FrontEnd} {d : Document} {functions : List FunctionInfo}

/-! ## 1. The finished graph -/

/-- Declaring a function adds no call. -/
theorem Linked.declare {c : CallGraph} (h : c.Linked []) (f : FunctionInfo) :
    (c.declare f).Linked [] := by
  refine ⟨fun a b => ?_, by simp⟩
  unfold CallGraph.declare
  split
  · simpa using h.calls a b
  · rw [mem_edges_framed]
    simpa using h.calls a b

/-- The functions of a text are known, and no call is linked yet. -/
theorem skeleton_knows (functions : List FunctionInfo) :
    (skeleton functions).Knows (functions.map (·.name)) ∧ (skeleton functions).Linked [] := by
  have hrun : ∀ (fs : List FunctionInfo) (c : CallGraph) (names : List String),
      c.Knows names → c.Linked [] →
        (fs.foldl declare c).Knows (names ++ fs.map (·.name)) ∧
          (fs.foldl declare c).Linked [] := by
    intro fs
    induction fs with
    | nil =>
      intro c names hk h
      rw [List.map_nil, List.append_nil]
      exact ⟨hk, h⟩
    | cons f fs ih =>
      intro c names hk h
      have := ih (c.declare f) (names ++ [f.name]) (hk.declare f) (h.declare f)
      rwa [List.append_assoc, List.singleton_append] at this
  exact hrun functions {} [] knows_empty ⟨by simp [Graph.empty], by simp⟩

/-- The calls of a document are linked. -/
theorem wired_linked (fe : FrontEnd) (functions : List FunctionInfo) (d : Document) :
    (wired fe functions (some d)).Knows (functions.map (·.name)) ∧
      (wired fe functions (some d)).Linked (fe.sitesAmong d [(.outermost, d.root)]) := by
  obtain ⟨hk, h⟩ := skeleton_knows functions
  rw [wired, follow_eq_foldl]
  exact foldl_link hk h

/-! ## 2. Calls -/

theorem toOption_eq_some_iff {ε α : Type} {x : Except ε α} {a : α} :
    x.toOption = some a ↔ x = .ok a := by
  cases x with
  | error e => simp [Except.toOption]
  | ok b => simp [Except.toOption]

/-- A call of a name, at any depth, with the innermost function around it. -/
def CallAt (fe : FrontEnd) (d : Document) (callee : String) (around : Option Node) : Prop :=
  ∃ (p : List Nat) (n : Node), d.root.at? p = some n ∧ fe.classify n.kind = .call ∧
    fe.calleeName d n = some callee ∧ fe.enclosing? d.root p = around

/-- A graph has one node per name, and its `calls` edges are those of the calls of a document. -/
structure IsCallGraphOf (fe : FrontEnd) (names : List String) (d : Document) (g : Graph) :
    Prop where
  nodup_ids : g.ids.Nodup
  edges_nodup : g.edges.Nodup
  function : ∀ name ∈ names, ∃! v, v ∈ g.nodesOf .function ∧ v.label = name
  label_mem : ∀ v ∈ g.nodesOf .function, v.label ∈ names
  program : ∀ v ∈ g.nodesOf .globalCaller, ∀ w ∈ g.nodesOf .globalCaller, v = w
  between : ∀ v ∈ g.nodesOf .function, ∀ w ∈ g.nodesOf .function,
    (⟨v.id, w.id, some .calls⟩ ∈ g.edges ↔
      v.label ≠ w.label ∧ ∃ f, CallAt fe d w.label (some f) ∧ d.declaredName f = .ok v.label)
  outside : ∀ w ∈ g.nodesOf .function,
    ((∃ v ∈ g.nodesOf .globalCaller, ⟨v.id, w.id, some .calls⟩ ∈ g.edges) ↔
      CallAt fe d w.label none)
  ends : ∀ e ∈ g.edges, e.relation = some .calls →
    (∃ v ∈ g.nodesOf .function ++ g.nodesOf .globalCaller, e.source = v.id) ∧
      ∃ w ∈ g.nodesOf .function, e.target = w.id

section Finished

variable {names : List String} {c : CallGraph}

/-- What is looked up under a name is a node exactly if the name is its label. -/
theorem Knows.bind_lookup_eq_iff (h : c.Knows names) {v : Graph.Vertex}
    (hv : v ∈ c.graph.nodesOf .function) {name : Option String} :
    name.bind (c.functions.lookup ·) = some v.id ↔ name = some v.label := by
  constructor
  · intro hname
    obtain ⟨name, rfl, hlookup⟩ := Option.bind_eq_some_iff.mp hname
    obtain ⟨w, hw, rfl, hid⟩ := h.lookup_eq_some_iff.mp hlookup
    rw [h.sound.eq_of_id_eq (Graph.mem_nodesOf.mp hw).1 (Graph.mem_nodesOf.mp hv).1 hid]
  · rintro rfl
    exact h.lookup_eq_some_iff.mpr ⟨v, hv, rfl, rfl⟩

/-- Function nodes are told apart by their labels. -/
theorem Knows.id_eq_iff (h : c.Knows names) {v w : Graph.Vertex}
    (hv : v ∈ c.graph.nodesOf .function) (hw : w ∈ c.graph.nodesOf .function) :
    v.id = w.id ↔ v.label = w.label := by
  have hlookup := (h.bind_lookup_eq_iff hv).mpr rfl
  constructor
  · intro hid
    rw [hid, h.bind_lookup_eq_iff hw] at hlookup
    exact Option.some.inj hlookup
  · intro hlabel
    rw [hlabel, (h.bind_lookup_eq_iff hw).mpr rfl] at hlookup
    exact (Option.some.inj hlookup).symm

/-- The global caller is no function. -/
theorem Knows.id_ne (h : c.Knows names) {v w : Graph.Vertex}
    (hv : v ∈ c.graph.nodesOf .globalCaller) (hw : w ∈ c.graph.nodesOf .function) :
    v.id ≠ w.id := by
  intro hid
  obtain ⟨hv, hkv⟩ := Graph.mem_nodesOf.mp hv
  obtain ⟨hw, hkw⟩ := Graph.mem_nodesOf.mp hw
  rw [h.sound.eq_of_id_eq hv hw hid, hkw] at hkv
  cases hkv

/-- Each name has one function node. -/
theorem Knows.existsUnique_function (h : c.Knows names) {name : String} (hname : name ∈ names) :
    ∃! v, v ∈ c.graph.nodesOf .function ∧ v.label = name := by
  obtain ⟨id, hid⟩ := Option.isSome_iff_exists.mp
    (lookup_isSome_iff_mem.mpr ((h.names name).mpr hname))
  obtain ⟨v, hv, rfl, -⟩ := h.lookup_eq_some_iff.mp hid
  exact ⟨v, ⟨hv, rfl⟩, fun w hw => h.sound.eq_of_id_eq (Graph.mem_nodesOf.mp hw.1).1
    (Graph.mem_nodesOf.mp hv).1 ((h.id_eq_iff hw.1 hv).mpr hw.2)⟩

/-- Function nodes are labelled with known names. -/
theorem Knows.label_mem (h : c.Knows names) {v : Graph.Vertex}
    (hv : v ∈ c.graph.nodesOf .function) : v.label ∈ names := by
  rw [← h.names v.label, h.functions]
  exact List.mem_map.mpr ⟨_, List.mem_map.mpr ⟨v, hv, rfl⟩, rfl⟩

/-- There is one global caller at most. -/
theorem Knows.eq_of_globalCaller (h : c.Knows names) {v w : Graph.Vertex}
    (hv : v ∈ c.graph.nodesOf .globalCaller) (hw : w ∈ c.graph.nodesOf .globalCaller) :
    v = w := by
  have hid : some v.id = some w.id := (h.global_eq_some_iff.mpr ⟨v, hv, rfl⟩).symm.trans
    (h.global_eq_some_iff.mpr ⟨w, hw, rfl⟩)
  exact h.sound.eq_of_id_eq (Graph.mem_nodesOf.mp hv).1 (Graph.mem_nodesOf.mp hw).1
    (Option.some.inj hid)

/-- Functions stay with what is connected, as each has an edge to its exit. -/
theorem Knows.nodesOf_function_retainConnected (h : c.Knows names) :
    c.graph.retainConnected.nodesOf .function = c.graph.nodesOf .function := by
  rw [Graph.nodesOf_retainConnected, List.filter_eq_self]
  intro v hv
  obtain ⟨e, he, hsource⟩ := h.flow v hv
  exact Graph.touches_iff.mpr ⟨e, he, Or.inl hsource⟩

/-- Calls lead from a function or the global caller to a function. -/
theorem calls_ends {sites : List CallSite} (hk : c.Knows names) (hl : c.Linked sites)
    {a b : NodeId} (he : ⟨a, b, some .calls⟩ ∈ c.graph.edges) :
    (∃ v ∈ c.graph.nodesOf .function ++ c.graph.nodesOf .globalCaller, a = v.id) ∧
      ∃ w ∈ c.graph.nodesOf .function, b = w.id := by
  obtain ⟨-, site, -, hcaller, hcallee⟩ := (hl.calls _ _).mp he
  constructor
  · cases hscope : site.scope with
    | outermost =>
      rw [hscope] at hcaller
      obtain ⟨v, hv, rfl⟩ := hk.global_eq_some_iff.mp hcaller
      exact ⟨v, List.mem_append_right _ hv, rfl⟩
    | inside name =>
      rw [hscope] at hcaller
      obtain ⟨name, -, hname⟩ := Option.bind_eq_some_iff.mp hcaller
      obtain ⟨v, hv, -, rfl⟩ := hk.lookup_eq_some_iff.mp hname
      exact ⟨v, List.mem_append_left _ hv, rfl⟩
  · obtain ⟨name, -, hname⟩ := Option.bind_eq_some_iff.mp hcallee
    obtain ⟨w, hw, -, rfl⟩ := hk.lookup_eq_some_iff.mp hname
    exact ⟨w, hw, rfl⟩

variable (hk : c.Knows names) (hl : c.Linked (fe.sitesAmong d [(.outermost, d.root)]))

include hk hl

/-- **An edge between two functions** is a call of the one directly inside the other. -/
theorem calls_between_iff {v w : Graph.Vertex} (hv : v ∈ c.graph.nodesOf .function)
    (hw : w ∈ c.graph.nodesOf .function) :
    ⟨v.id, w.id, some .calls⟩ ∈ c.graph.edges ↔
      v.label ≠ w.label ∧ ∃ f, CallAt fe d w.label (some f) ∧ d.declaredName f = .ok v.label := by
  rw [hl.calls, Ne, hk.id_eq_iff hv hw]
  refine and_congr_right fun _ => ?_
  constructor
  · rintro ⟨site, hsite, hcaller, hcallee⟩
    obtain ⟨p, n, hn, hcall, rfl⟩ := mem_sitesAmong_root.mp hsite
    have hname := (hk.bind_lookup_eq_iff hw).mp hcallee
    cases hf : fe.enclosing? d.root p with
    | none =>
      -- the global caller would be a function
      rw [hf] at hcaller
      obtain ⟨u, hu, hid⟩ := hk.global_eq_some_iff.mp hcaller
      exact absurd hid (hk.id_ne hu hv)
    | some f =>
      rw [hf] at hcaller
      have hscope := (hk.bind_lookup_eq_iff hv).mp hcaller
      exact ⟨f, ⟨p, n, hn, hcall, hname, hf⟩, toOption_eq_some_iff.mp hscope⟩
  · rintro ⟨f, ⟨p, n, hn, hcall, hname, hf⟩, hscope⟩
    refine ⟨_, mem_sitesAmong_root.mpr ⟨p, n, hn, hcall, rfl⟩, ?_, ?_⟩
    · rw [hf]
      exact (hk.bind_lookup_eq_iff hv).mpr (toOption_eq_some_iff.mpr hscope)
    · exact (hk.bind_lookup_eq_iff hw).mpr hname

/-- **An edge from the global caller** is a call that stands in no function. -/
theorem calls_outside_iff {w : Graph.Vertex} (hw : w ∈ c.graph.nodesOf .function) :
    (∃ v ∈ c.graph.nodesOf .globalCaller, ⟨v.id, w.id, some .calls⟩ ∈ c.graph.edges) ↔
      CallAt fe d w.label none := by
  constructor
  · rintro ⟨v, hv, hedge⟩
    obtain ⟨-, site, hsite, hcaller, hcallee⟩ := (hl.calls _ _).mp hedge
    obtain ⟨p, n, hn, hcall, rfl⟩ := mem_sitesAmong_root.mp hsite
    refine ⟨p, n, hn, hcall, (hk.bind_lookup_eq_iff hw).mp hcallee, ?_⟩
    cases hf : fe.enclosing? d.root p with
    | none => rfl
    | some f =>
      rw [hf] at hcaller
      obtain ⟨name, -, hname⟩ := Option.bind_eq_some_iff.mp hcaller
      obtain ⟨u, hu, -, hid⟩ := hk.lookup_eq_some_iff.mp hname
      exact absurd hid.symm (hk.id_ne hv hu)
  · rintro ⟨p, n, hn, hcall, hname, hf⟩
    have hsite := mem_sitesAmong_root.mpr ⟨p, n, hn, hcall, rfl⟩
    have hcallee := (hk.bind_lookup_eq_iff hw).mpr hname
    rw [hf] at hsite
    have hsome := hl.outside _ hsite rfl (by
      rw [callee?, hcallee]
      rfl)
    obtain ⟨id, hid⟩ := Option.isSome_iff_exists.mp hsome
    obtain ⟨v, hv, rfl⟩ := hk.global_eq_some_iff.mp hid
    exact ⟨v, hv, (hl.calls _ _).mpr ⟨hk.id_ne hv hw, _, hsite, hid, hcallee⟩⟩

end Finished

/-- **The call graph of a document shows its calls.** -/
theorem synthesize_isCallGraphOf (fe : FrontEnd) (functions : List FunctionInfo) (d : Document)
    (hf : functions ≠ []) :
    IsCallGraphOf fe (functions.map (·.name)) d (synthesize fe functions (some d)) := by
  obtain ⟨hk, hl⟩ := wired_linked fe functions d
  have hgraph : synthesize fe functions (some d) =
      (wired fe functions (some d)).graph.retainConnected := by
    rw [synthesize, if_neg (by simpa using hf)]
  generalize wired fe functions (some d) = c at hk hl hgraph
  have hfunctions := hk.nodesOf_function_retainConnected
  have hglobal : ∀ v, v ∈ c.graph.retainConnected.nodesOf .globalCaller ↔
      v ∈ c.graph.nodesOf .globalCaller ∧ c.graph.touches v.id = true := by
    intro v
    rw [Graph.nodesOf_retainConnected, List.mem_filter]
  have hedges : c.graph.retainConnected.edges = c.graph.edges := rfl
  rw [hgraph]
  refine ⟨?_, hk.sound.nodup, ?_, ?_, ?_, ?_, ?_, ?_⟩
  · exact hk.sound.nodup_ids.sublist (List.filter_sublist.map _)
  · intro name hname
    rw [hfunctions]
    exact hk.existsUnique_function hname
  · intro v hv
    rw [hfunctions] at hv
    exact hk.label_mem hv
  · intro v hv w hw
    exact hk.eq_of_globalCaller ((hglobal v).mp hv).1 ((hglobal w).mp hw).1
  · intro v hv w hw
    rw [hfunctions] at hv hw
    exact calls_between_iff hk hl hv hw
  · intro w hw
    rw [hfunctions] at hw
    rw [← calls_outside_iff hk hl hw, hedges]
    constructor
    · rintro ⟨v, hv, he⟩
      exact ⟨v, ((hglobal v).mp hv).1, he⟩
    · rintro ⟨v, hv, he⟩
      exact ⟨v, (hglobal v).mpr ⟨hv, Graph.touches_iff.mpr ⟨_, he, Or.inl rfl⟩⟩, he⟩
  · rintro ⟨a, b, relation⟩ he rfl
    obtain ⟨⟨v, hv, rfl⟩, hb⟩ := calls_ends hk hl he
    rw [hfunctions]
    refine ⟨⟨v, ?_, rfl⟩, hb⟩
    rcases List.mem_append.mp hv with hv | hv
    · exact List.mem_append_left _ hv
    · exact List.mem_append_right _
        ((hglobal v).mpr ⟨hv, Graph.touches_iff.mpr ⟨_, he, Or.inl rfl⟩⟩)

/-- The text `f()` with a function of that name. -/
theorem synthesize_isCallGraphOf_call :
    let functions : List FunctionInfo := [{ name := "f", line := 1, parameters := [] }]
    let d : Document := {
      language := .python
      text := "f()"
      tree := .node { id := 0, kind := "module", start := 0, stop := 3 }
        [.node { id := 1, kind := "expression_statement", start := 0, stop := 3 }
          [.node { id := 2, kind := "call", start := 0, stop := 3 }
            [.node { id := 3, kind := "identifier", start := 0, stop := 1, field := "function" } [],
             .node { id := 4, kind := "argument_list", start := 1, stop := 3 } []]]] }
    functions ≠ [] ∧ IsCallGraphOf Python.frontEnd (functions.map (·.name)) d
      (synthesize Python.frontEnd functions (some d)) :=
  ⟨List.cons_ne_nil _ _, synthesize_isCallGraphOf _ _ _ (List.cons_ne_nil _ _)⟩

end CodeDiagram.CallGraph
