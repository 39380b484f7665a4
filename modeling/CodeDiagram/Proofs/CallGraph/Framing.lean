/-
# The shape of a call graph

A call graph is its frames, the calls between them and at most one global caller
(`CallGraph.synthesize_isFramed`).  A frame is a function between its entry and its exit; there is
one for the first declaration of each name, in the order of the text (`CallGraph.firsts`).

* `CallGraph.IsSkeleton` is what the declarations make, and the run over them keeps it: the numbers
  of nodes and edges follow from the number of names that are known.
* `CallGraph.Extends` is what the calls add to that: edges and, before the first call that needs it,
  the global caller.  One link brings both the caller and an edge from it (`Extends.link`), so no
  graph has a caller that calls nothing.

Together they leave no node without an edge, and dropping such nodes drops none.
-/
import CodeDiagram.Proofs.CallGraph.Calls
import Mathlib.Data.List.Induction

namespace CodeDiagram.CallGraph

open Syntax

/-! ## 1. Frames -/

/-- The first declaration of each name, in the order of the text. -/
def firsts (functions : List FunctionInfo) : List FunctionInfo :=
  (functions.map (·.name)).eraseDups.filterMap fun name => functions.find? (·.name == name)

/-- The nodes of a function that is the `i`-th of those with a new name. -/
def frame (i : Nat) (f : FunctionInfo) : List Graph.Vertex :=
  [⟨3 * i, "function", .function, f.name, some f.line⟩,
    ⟨3 * i + 1, "entry", .entry, f.name ++ "_entry", some f.line⟩,
    ⟨3 * i + 2, "exit", .exit, f.name ++ "_exit", some f.line⟩]

/-- The nodes of functions with different names. -/
def frames (fs : List FunctionInfo) : List Graph.Vertex := (fs.mapIdx frame).flatten

/-- The way through the `i`-th function: in at its entry and out at its exit. -/
def passage (i : Nat) : List Graph.Edge :=
  [⟨3 * i + 1, 3 * i, some .flow⟩, ⟨3 * i, 3 * i + 2, some .flow⟩]

/-- The ways through functions with different names. -/
def passages (n : Nat) : List Graph.Edge := (List.range n).flatMap passage

/-- A declaration counts if it is the first of its name. -/
theorem firsts_concat (fs : List FunctionInfo) (f : FunctionInfo) :
    firsts (fs ++ [f]) = if f.name ∈ fs.map (·.name) then firsts fs else firsts fs ++ [f] := by
  have hold : (fs.map (·.name)).eraseDups.filterMap
      (fun name => (fs ++ [f]).find? (·.name == name)) = firsts fs := by
    refine List.filterMap_congr fun name hname => ?_
    obtain ⟨g, hg, rfl⟩ := List.mem_map.mp (List.mem_eraseDups.mp hname)
    have hsome : (fs.find? (·.name == g.name)).isSome :=
      List.find?_isSome.mpr ⟨g, hg, beq_self_eq_true g.name⟩
    obtain ⟨h, hh⟩ := Option.isSome_iff_exists.mp hsome
    rw [List.find?_append, hh, Option.some_or]
  rw [firsts, List.map_append, List.eraseDups_append, List.filterMap_append, hold]
  split
  · rename_i hmem
    have hnone : ([f].map (·.name)).removeAll (fs.map (·.name)) = [] := by
      simpa [List.removeAll] using hmem
    rw [hnone, List.eraseDups_nil, List.filterMap_nil, List.append_nil]
  · rename_i hnew
    have hone : ([f].map (·.name)).removeAll (fs.map (·.name)) = [f.name] := by
      simpa [List.removeAll] using hnew
    have hfind : (fs ++ [f]).find? (·.name == f.name) = some f := by
      rw [List.find?_append, List.find?_eq_none.mpr]
      · simp
      · intro g hg heq
        exact hnew (List.mem_map.mpr ⟨g, hg, beq_iff_eq.mp heq⟩)
    rw [hone, List.eraseDups_cons, List.filter_nil, List.eraseDups_nil, List.filterMap_cons, hfind,
      List.filterMap_nil]

theorem mem_of_mem_firsts {fs : List FunctionInfo} {f : FunctionInfo} (h : f ∈ firsts fs) :
    f ∈ fs := by
  obtain ⟨name, -, hf⟩ := List.mem_filterMap.mp h
  exact List.mem_of_find?_eq_some hf

theorem frames_concat (fs : List FunctionInfo) (f : FunctionInfo) :
    frames (fs ++ [f]) = frames fs ++ frame fs.length f := by
  simp [frames, List.mapIdx_append]

theorem passages_succ (n : Nat) : passages (n + 1) = passages n ++ passage n := by
  simp [passages, List.range_succ]

theorem mem_frames {fs : List FunctionInfo} {v : Graph.Vertex} :
    v ∈ frames fs ↔ ∃ (i : Nat) (h : i < fs.length), v ∈ frame i fs[i] := by
  simp only [frames, List.mem_flatten, List.mem_mapIdx]
  constructor
  · rintro ⟨_, ⟨i, hi, rfl⟩, hv⟩
    exact ⟨i, hi, hv⟩
  · rintro ⟨i, hi, hv⟩
    exact ⟨_, ⟨i, hi, rfl⟩, hv⟩

theorem mem_passages {n : Nat} {e : Graph.Edge} :
    e ∈ passages n ↔ ∃ i < n, e ∈ passage i := by
  simp [passages]

/-- A frame numbers its nodes by their kinds. -/
theorem id_of_mem_frame {i : Nat} {f : FunctionInfo} {v : Graph.Vertex} (h : v ∈ frame i f) :
    v.kind = .function ∧ v.id = 3 * i ∨ v.kind = .entry ∧ v.id = 3 * i + 1 ∨
      v.kind = .exit ∧ v.id = 3 * i + 2 := by
  simp only [frame, List.mem_cons, List.not_mem_nil, or_false] at h
  rcases h with rfl | rfl | rfl
  · exact Or.inl ⟨rfl, rfl⟩
  · exact Or.inr (Or.inl ⟨rfl, rfl⟩)
  · exact Or.inr (Or.inr ⟨rfl, rfl⟩)

/-- A passage leads from an entry to a function or from there to an exit. -/
theorem ends_of_mem_passage {i : Nat} {e : Graph.Edge} (h : e ∈ passage i) :
    e.relation = some .flow ∧ (e.source = 3 * i + 1 ∧ e.target = 3 * i ∨
      e.source = 3 * i ∧ e.target = 3 * i + 2) := by
  simp only [passage, List.mem_cons, List.not_mem_nil, or_false] at h
  rcases h with rfl | rfl
  · exact ⟨rfl, Or.inl ⟨rfl, rfl⟩⟩
  · exact ⟨rfl, Or.inr ⟨rfl, rfl⟩⟩

/-- A passage does not lead to an entry, nor away from an exit, nor out of its frame. -/
theorem ne_of_mem_passage {i j : Nat} {e : Graph.Edge} (h : e ∈ passage j) :
    e.target ≠ 3 * i + 1 ∧ e.source ≠ 3 * i + 2 ∧ (j < i → e.target ≠ 3 * i) := by
  have harith : ∀ source target : Nat,
      source = 3 * j + 1 ∧ target = 3 * j ∨ source = 3 * j ∧ target = 3 * j + 2 →
        target ≠ 3 * i + 1 ∧ source ≠ 3 * i + 2 ∧ (j < i → target ≠ 3 * i) := by omega
  exact harith _ _ (ends_of_mem_passage h).2

/-! ## 2. What declarations make -/

/-- The graph is the frames of these functions, and nothing else. -/
structure IsSkeleton (c : CallGraph) (fs : List FunctionInfo) : Prop where
  nodes : c.graph.nodes = frames fs
  edges : c.graph.edges = passages fs.length
  nextId : c.graph.nextId = 3 * fs.length
  global : c.global = none

theorem nodes_framed (g : Graph) (f : FunctionInfo) :
    (framed g f).nodes = g.nodes ++
      [⟨g.nextId, "function", .function, f.name, some f.line⟩,
        ⟨g.nextId + 1, "entry", .entry, f.name ++ "_entry", some f.line⟩,
        ⟨g.nextId + 2, "exit", .exit, f.name ++ "_exit", some f.line⟩] := by
  simp [framed]

theorem nextId_framed (g : Graph) (f : FunctionInfo) : (framed g f).nextId = g.nextId + 3 := by
  simp [framed]

/-- A frame brings its two edges: they join nodes that were not there before. -/
theorem edges_framed {g : Graph} (h : g.Sound) (f : FunctionInfo) :
    (framed g f).edges = g.edges ++
      [⟨g.nextId + 1, g.nextId, some .flow⟩, ⟨g.nextId, g.nextId + 2, some .flow⟩] := by
  have hfresh : ∀ (a b : NodeId), a = g.nextId ∨ b = g.nextId → ⟨a, b, some .flow⟩ ∉ g.edges := by
    rintro a b (rfl | rfl) he
    · exact h.nextId_notMem (h.joined _ he).1
    · exact h.nextId_notMem (h.joined _ he).2
  simp only [framed]
  rw [Graph.edges_addEdge_of_admits, Graph.edges_addEdge_of_admits]
  · simp
  · rw [Graph.admits_eq_true]
    simp [hfresh]
  · rw [Graph.admits_eq_true, Graph.edges_addEdge_of_admits]
    · simp [hfresh]
    · rw [Graph.admits_eq_true]
      simp [hfresh]

/-- **Declaring a function** adds its frame if its name is new. -/
theorem IsSkeleton.declare {c : CallGraph} {functions : List FunctionInfo}
    (hk : c.Knows (functions.map (·.name))) (h : c.IsSkeleton (firsts functions))
    (f : FunctionInfo) : (c.declare f).IsSkeleton (firsts (functions ++ [f])) := by
  have hknown : (c.functions.lookup f.name).isSome = true ↔ f.name ∈ functions.map (·.name) :=
    lookup_isSome_iff_mem.trans (hk.names f.name)
  rw [firsts_concat]
  unfold CallGraph.declare
  split
  · rename_i hsome
    rwa [if_pos (hknown.mp hsome)]
  · rename_i hsome
    rw [if_neg fun hmem => hsome (hknown.mpr hmem)]
    refine ⟨?_, ?_, ?_, h.global⟩
    · rw [frames_concat, ← h.nodes, nodes_framed, h.nextId, frame]
    · rw [List.length_append, List.length_singleton, passages_succ, ← h.edges,
        edges_framed hk.sound, h.nextId, passage]
    · rw [nextId_framed, h.nextId, List.length_append, List.length_singleton, Nat.mul_succ]

/-- **The run**: the functions of a text make the frames of those with a new name. -/
theorem skeleton_isSkeleton (functions : List FunctionInfo) :
    (skeleton functions).IsSkeleton (firsts functions) := by
  induction functions using List.reverseRecOn with
  | nil => exact ⟨rfl, rfl, rfl, rfl⟩
  | append_singleton fs f ih =>
    have hstep : skeleton (fs ++ [f]) = (skeleton fs).declare f := by
      rw [skeleton, List.foldl_append, ← skeleton]
      rfl
    rw [hstep]
    exact ih.declare (skeleton_knows fs).1 f

/-! ## 3. What calls add -/

/-- The node of the global caller. -/
def program (id : NodeId) : Graph.Vertex := ⟨id, "program", .globalCaller, globalLabel, none⟩

/-- Calls were added to a graph without global caller, and a caller as soon as one came from it. -/
structure Extends (s c : CallGraph) : Prop where
  nodes : c.graph.nodes = s.graph.nodes ++ c.global.toList.map program
  edges : ∃ calls : List Graph.Edge, c.graph.edges = s.graph.edges ++ calls ∧
    ∀ e ∈ calls, e.relation = some .calls
  fresh : ∀ id, c.global = some id → id = s.graph.nextId
  nextId : c.global = none → c.graph.nextId = s.graph.nextId
  busy : ∀ id, c.global = some id → ∃ e ∈ c.graph.edges, e.source = id ∧ e.relation = some .calls

section Linking

variable {s c : CallGraph} {names : List String}

/-- Nothing is added yet. -/
theorem Extends.refl (h : s.global = none) : s.Extends s where
  nodes := by simp [h]
  edges := ⟨[], by simp, by simp⟩
  fresh := by simp [h]
  nextId _ := rfl
  busy := by simp [h]

/-- An edge between known nodes is added or there already. -/
theorem Extends.connect (h : s.Extends c) (caller callee : NodeId) :
    s.Extends (c.connect caller callee) := by
  unfold CallGraph.connect
  split
  · exact h
  · obtain ⟨calls, hcalls, hrelation⟩ := h.edges
    refine ⟨by rw [Graph.nodes_addEdge, h.nodes], ?_, h.fresh, ?_, fun id hid => ?_⟩
    · dsimp only
      cases hadm : c.graph.admits ⟨caller, callee, some .calls⟩ with
      | false => exact ⟨calls, by rw [Graph.addEdge, hadm]; exact hcalls, hrelation⟩
      | true =>
        refine ⟨calls ++ [⟨caller, callee, some .calls⟩], ?_, ?_⟩
        · rw [Graph.edges_addEdge_of_admits hadm, hcalls, List.append_assoc]
        · intro e he
          rcases List.mem_append.mp he with he | he
          · exact hrelation e he
          · rw [List.mem_singleton.mp he]
    · rw [Graph.nextId_addEdge]
      exact h.nextId
    · obtain ⟨e, he, hends⟩ := h.busy id hid
      exact ⟨e, Graph.mem_edges_addEdge_of_mem he _, hends⟩

/-- The first call from outside brings the global caller, and an edge from it. -/
theorem Extends.connect_withGlobal (hk : c.Knows names) (h : s.Extends c) {callee : NodeId}
    (hcallee : callee ∈ c.graph.ids) :
    s.Extends (c.withGlobal.1.connect c.withGlobal.2 callee) := by
  unfold CallGraph.withGlobal
  split
  · exact h.connect _ _
  · rename_i hnone
    obtain ⟨calls, hcalls, hrelation⟩ := h.edges
    have hne : c.graph.nextId ≠ callee := by
      rintro rfl
      exact hk.sound.nextId_notMem hcallee
    have hedges : ((c.graph.addNode "program" .globalCaller globalLabel).1.addEdge
        ⟨c.graph.nextId, callee, some .calls⟩).edges =
          c.graph.edges ++ [⟨c.graph.nextId, callee, some .calls⟩] := by
      refine Graph.edges_addEdge_of_admits
        (Graph.admits_eq_true.mpr ⟨by simp, by simp [hcallee], ?_⟩)
      exact fun he => hk.sound.nextId_notMem (hk.sound.joined _ he).1
    rw [CallGraph.connect, Graph.addNode_snd, if_neg hne]
    refine ⟨?_, ⟨calls ++ [⟨c.graph.nextId, callee, some .calls⟩], ?_, ?_⟩, ?_, ?_, ?_⟩
    · simp [h.nodes, hnone, program]
    · rw [hedges, hcalls, List.append_assoc]
    · intro e he
      rcases List.mem_append.mp he with he | he
      · exact hrelation e he
      · rw [List.mem_singleton.mp he]
    · rintro id ⟨⟩
      exact h.nextId hnone
    · rintro ⟨⟩
    · rintro id ⟨⟩
      exact ⟨_, hedges ▸ List.mem_append_right _ List.mem_cons_self, rfl, rfl⟩

/-- **Linking a call** adds no more than the call and its caller. -/
theorem Extends.link (hk : c.Knows names) (h : s.Extends c) (site : CallSite) :
    s.Extends (c.link site) := by
  unfold CallGraph.link
  split
  · exact h
  · rename_i callee hcallee
    split
    · exact h.connect_withGlobal hk (hk.mem_ids_of_callee? hcallee)
    · split
      · exact h.connect _ _
      · exact h

/-- **The run**: linking some calls adds no more than these and their caller. -/
theorem Extends.foldl_link (hk : c.Knows names) (h : s.Extends c) (sites : List CallSite) :
    s.Extends (sites.foldl CallGraph.link c) := by
  induction sites generalizing c with
  | nil => exact h
  | cons site sites ih => exact ih (hk.link site) (h.link hk site)

end Linking

/-- A graph with or without the calls of a document: what it knows, what is linked and what that
added to the functions. -/
theorem wired_extends (fe : FrontEnd) (functions : List FunctionInfo) (d : Option Document) :
    (wired fe functions d).Knows (functions.map (·.name)) ∧
      (∃ sites, (wired fe functions d).Linked sites) ∧
      (skeleton functions).Extends (wired fe functions d) := by
  have hnone := (skeleton_isSkeleton functions).global
  obtain ⟨hk, hl⟩ := skeleton_knows functions
  cases d with
  | none => exact ⟨hk, ⟨_, hl⟩, .refl hnone⟩
  | some d =>
    obtain ⟨hk', hl'⟩ := wired_linked fe functions d
    refine ⟨hk', ⟨_, hl'⟩, ?_⟩
    rw [wired, follow_eq_foldl]
    exact (Extends.refl hnone).foldl_link hk _

/-! ## 4. The finished graph -/

/-- The shape of a call graph of declared functions: frames of the first declarations of the names,
calls between functions, and at most one global caller, which calls something. -/
structure IsFramed (functions : List FunctionInfo) (g : Graph) : Prop where
  nodup_ids : g.ids.Nodup
  /-- The frames come first, and at most one global caller behind them. -/
  nodes : g.nodes = frames (firsts functions) ++ g.nodesOf .globalCaller
  caller : g.nodesOf .globalCaller = [] ∨
    g.nodesOf .globalCaller = [program (3 * (firsts functions).length)]
  nodup_edges : g.edges.Nodup
  /-- Functions have their passages, and all other edges are calls. -/
  flow : g.edges.filter (·.relation == some .flow) = passages (firsts functions).length
  relation : ∀ e ∈ g.edges, e.relation = some .flow ∨ e.relation = some .calls
  calls : ∀ e ∈ g.edges, e.relation = some .calls → e.source ≠ e.target ∧
    (∃ v ∈ g.nodesOf .function ++ g.nodesOf .globalCaller, e.source = v.id) ∧
      ∃ w ∈ g.nodesOf .function, e.target = w.id
  /-- Nothing leads to an entry, and nothing away from an exit. -/
  entry : ∀ v ∈ g.nodesOf .entry, ∀ e ∈ g.edges, e.target ≠ v.id
  exit : ∀ v ∈ g.nodesOf .exit, ∀ e ∈ g.edges, e.source ≠ v.id
  uncalled : ∀ v ∈ g.nodesOf .globalCaller, ∀ e ∈ g.edges, e.target ≠ v.id
  /-- Every node has an edge, and the global caller calls something. -/
  touched : ∀ v ∈ g.nodes, ∃ e ∈ g.edges, e.source = v.id ∨ e.target = v.id
  busy : ∀ v ∈ g.nodesOf .globalCaller, ∃ e ∈ g.edges, e.source = v.id ∧ e.relation = some .calls

section Finished

variable {fs : List FunctionInfo} {s c : CallGraph} {names : List String} {sites : List CallSite}

/-- The frames hold no global caller, so it is the node that calls added. -/
theorem Extends.nodesOf_globalCaller (hs : s.IsSkeleton fs) (h : s.Extends c) :
    c.graph.nodesOf .globalCaller = c.global.toList.map program := by
  rw [Graph.nodesOf, h.nodes, hs.nodes, List.filter_append, List.filter_eq_nil_iff.mpr,
    List.nil_append, List.filter_eq_self]
  · simp [program]
  · intro v hv
    obtain ⟨i, hi, hv⟩ := mem_frames.mp hv
    rcases id_of_mem_frame hv with ⟨hkind, -⟩ | ⟨hkind, -⟩ | ⟨hkind, -⟩ <;> simp [hkind]

/-- A node of another kind stands in a frame, which numbers it. -/
theorem Extends.exists_frame (hs : s.IsSkeleton fs) (h : s.Extends c) {v : Graph.Vertex}
    (hv : v ∈ c.graph.nodes) (hkind : v.kind ≠ .globalCaller) :
    ∃ i < fs.length, v.kind = .function ∧ v.id = 3 * i ∨ v.kind = .entry ∧ v.id = 3 * i + 1 ∨
      v.kind = .exit ∧ v.id = 3 * i + 2 := by
  rw [h.nodes, hs.nodes, List.mem_append] at hv
  rcases hv with hv | hv
  · obtain ⟨i, hi, hv⟩ := mem_frames.mp hv
    exact ⟨i, hi, id_of_mem_frame hv⟩
  · obtain ⟨id, -, rfl⟩ := List.mem_map.mp hv
    exact absurd rfl hkind

/-- An edge is part of a passage or a call. -/
theorem Extends.mem_edges (hs : s.IsSkeleton fs) (h : s.Extends c) {e : Graph.Edge}
    (he : e ∈ c.graph.edges) :
    (∃ i < fs.length, e ∈ passage i) ∨ e.relation = some .calls := by
  obtain ⟨calls, hcalls, hrelation⟩ := h.edges
  rw [hcalls, hs.edges, List.mem_append] at he
  rcases he with he | he
  · exact Or.inl (mem_passages.mp he)
  · exact Or.inr (hrelation e he)

/-- The passages come first among the edges. -/
theorem Extends.mem_edges_of_mem_passage (hs : s.IsSkeleton fs) (h : s.Extends c) {i : Nat}
    (hi : i < fs.length) {e : Graph.Edge} (he : e ∈ passage i) : e ∈ c.graph.edges := by
  obtain ⟨calls, hcalls, -⟩ := h.edges
  rw [hcalls, hs.edges]
  exact List.mem_append_left _ (mem_passages.mpr ⟨i, hi, he⟩)

/-- Calls lead to functions only. -/
theorem not_calls_of_kind_ne (hk : c.Knows names) (hl : c.Linked sites) {v : Graph.Vertex}
    (hv : v ∈ c.graph.nodes) (hkind : v.kind ≠ .function) {e : Graph.Edge}
    (he : e ∈ c.graph.edges) (hcalls : e.relation = some .calls) : e.target ≠ v.id := by
  obtain ⟨a, b, relation⟩ := e
  subst hcalls
  obtain ⟨-, w, hw, rfl⟩ := calls_ends hk hl he
  intro hid
  obtain ⟨hw, hkw⟩ := Graph.mem_nodesOf.mp hw
  exact hkind (hk.sound.eq_of_id_eq hw hv hid ▸ hkw)

/-- Every node has an edge: a frame has its passage, and the global caller a call. -/
theorem Extends.exists_edge (hs : s.IsSkeleton fs) (h : s.Extends c) {v : Graph.Vertex}
    (hv : v ∈ c.graph.nodes) : ∃ e ∈ c.graph.edges, e.source = v.id ∨ e.target = v.id := by
  by_cases hkind : v.kind = .globalCaller
  · have hv : v ∈ c.graph.nodesOf .globalCaller := Graph.mem_nodesOf.mpr ⟨hv, hkind⟩
    rw [h.nodesOf_globalCaller hs] at hv
    obtain ⟨id, hid, rfl⟩ := List.mem_map.mp hv
    obtain ⟨e, he, hsource, -⟩ := h.busy id (Option.mem_toList.mp hid)
    exact ⟨e, he, Or.inl hsource⟩
  · obtain ⟨i, hi, hid⟩ := h.exists_frame hs hv hkind
    have hedge : ∀ e ∈ passage i, e ∈ c.graph.edges :=
      fun e => h.mem_edges_of_mem_passage hs hi
    rcases hid with ⟨-, hid⟩ | ⟨-, hid⟩ | ⟨-, hid⟩
    · exact ⟨_, hedge ⟨3 * i, 3 * i + 2, some .flow⟩ (by simp [passage]), Or.inl hid.symm⟩
    · exact ⟨_, hedge ⟨3 * i + 1, 3 * i, some .flow⟩ (by simp [passage]), Or.inl hid.symm⟩
    · exact ⟨_, hedge ⟨3 * i, 3 * i + 2, some .flow⟩ (by simp [passage]), Or.inr hid.symm⟩

/-- The `flow` edges are the passages. -/
theorem Extends.filter_flow (hs : s.IsSkeleton fs) (h : s.Extends c) :
    c.graph.edges.filter (·.relation == some .flow) = passages fs.length := by
  obtain ⟨calls, hcalls, hrelation⟩ := h.edges
  rw [hcalls, hs.edges, List.filter_append, List.filter_eq_self.mpr, List.filter_eq_nil_iff.mpr,
    List.append_nil]
  · intro e he
    simp [hrelation e he]
  · intro e he
    obtain ⟨i, -, he⟩ := mem_passages.mp he
    simp [(ends_of_mem_passage he).1]

/-- **Frames and calls** make a graph of this shape. -/
theorem Extends.isFramed {functions : List FunctionInfo} (hs : s.IsSkeleton (firsts functions))
    (h : s.Extends c) (hk : c.Knows names) (hl : c.Linked sites) :
    IsFramed functions c.graph where
  nodup_ids := hk.sound.nodup_ids
  nodes := by rw [h.nodes, hs.nodes, h.nodesOf_globalCaller hs]
  caller := by
    rw [h.nodesOf_globalCaller hs]
    cases hglobal : c.global with
    | none => exact Or.inl rfl
    | some id =>
      rw [h.fresh id hglobal, hs.nextId]
      exact Or.inr rfl
  nodup_edges := hk.sound.nodup
  flow := h.filter_flow hs
  relation := by
    intro e he
    rcases h.mem_edges hs he with ⟨i, -, he⟩ | hcalls
    · exact Or.inl (ends_of_mem_passage he).1
    · exact Or.inr hcalls
  calls := by
    rintro ⟨a, b, relation⟩ he rfl
    exact ⟨((hl.calls a b).mp he).1, calls_ends hk hl he⟩
  entry := by
    intro v hv e he
    obtain ⟨hv, hkind⟩ := Graph.mem_nodesOf.mp hv
    rcases h.mem_edges hs he with ⟨j, -, he⟩ | hcalls
    · obtain ⟨i, -, hid⟩ := h.exists_frame hs hv (by simp [hkind])
      simp only [hkind, reduceCtorEq, false_and, true_and, false_or, or_false] at hid
      exact hid ▸ (ne_of_mem_passage he).1
    · exact not_calls_of_kind_ne hk hl hv (by simp [hkind]) he hcalls
  exit := by
    intro v hv e he
    obtain ⟨hv, hkind⟩ := Graph.mem_nodesOf.mp hv
    rcases h.mem_edges hs he with ⟨j, -, he⟩ | hcalls
    · obtain ⟨i, -, hid⟩ := h.exists_frame hs hv (by simp [hkind])
      simp only [hkind, reduceCtorEq, false_and, true_and, false_or] at hid
      exact hid ▸ (ne_of_mem_passage he).2.1
    · obtain ⟨a, b, relation⟩ := e
      subst hcalls
      obtain ⟨⟨u, hu, rfl⟩, -⟩ := calls_ends hk hl he
      intro hid
      rcases List.mem_append.mp hu with hu | hu
      all_goals
        obtain ⟨hu, hku⟩ := Graph.mem_nodesOf.mp hu
        rw [hk.sound.eq_of_id_eq hu hv hid, hkind] at hku
        cases hku
  uncalled := by
    intro v hv e he
    rcases h.mem_edges hs he with ⟨j, hj, he⟩ | hcalls
    · rw [h.nodesOf_globalCaller hs] at hv
      obtain ⟨id, hid, rfl⟩ := List.mem_map.mp hv
      rw [h.fresh id (Option.mem_toList.mp hid), hs.nextId]
      exact (ne_of_mem_passage he).2.2 hj
    · obtain ⟨hv, hkind⟩ := Graph.mem_nodesOf.mp hv
      exact not_calls_of_kind_ne hk hl hv (by simp [hkind]) he hcalls
  touched := fun v hv => h.exists_edge hs hv
  busy := by
    intro v hv
    rw [h.nodesOf_globalCaller hs] at hv
    obtain ⟨id, hid, rfl⟩ := List.mem_map.mp hv
    exact h.busy id (Option.mem_toList.mp hid)

end Finished

/-- The graph of declared functions: no node of it is dropped, as each has an edge. -/
theorem synthesize_eq_wired (fe : FrontEnd) {functions : List FunctionInfo}
    (hf : functions ≠ []) (d : Option Document) :
    synthesize fe functions d = (wired fe functions d).graph := by
  obtain ⟨-, -, h⟩ := wired_extends fe functions d
  rw [synthesize, if_neg (by simpa using hf), Graph.retainConnected_eq_self fun v hv =>
    h.exists_edge (skeleton_isSkeleton functions) hv]

/-- **The shape of every call graph**: it tells that there is no function, exactly if none is
declared, or it consists of frames, calls and at most one global caller, and then no node was
dropped. -/
theorem synthesize_isFramed (fe : FrontEnd) (functions : List FunctionInfo)
    (d : Option Document) :
    (((synthesize fe functions d).nodes = [⟨0, "message", .message, noFunctions, none⟩] ∧
        (synthesize fe functions d).edges = []) ↔ functions = []) ∧
      (functions = [] ∨ IsFramed functions (synthesize fe functions d) ∧
        (wired fe functions d).graph.retainConnected = (wired fe functions d).graph) := by
  obtain ⟨hk, ⟨sites, hl⟩, h⟩ := wired_extends fe functions d
  have hframed := h.isFramed (skeleton_isSkeleton functions) hk hl
  have hretain := Graph.retainConnected_eq_self hframed.touched
  by_cases hf : functions = []
  · subst hf
    exact ⟨⟨fun _ => rfl, fun _ => ⟨rfl, rfl⟩⟩, Or.inl rfl⟩
  · rw [synthesize_eq_wired fe hf d]
    refine ⟨⟨?_, fun hnil => absurd hnil hf⟩, Or.inr ⟨hframed, hretain⟩⟩
    rintro ⟨hnodes, hedges⟩
    -- the message would have an edge
    obtain ⟨e, he, -⟩ := hframed.touched _ (hnodes ▸ List.mem_cons_self)
    rw [hedges] at he
    cases he

end CodeDiagram.CallGraph
