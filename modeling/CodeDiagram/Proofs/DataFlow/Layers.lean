/-
# The layers of a data-flow graph

What the invariant `Layered` says of the finished graph: the degrees of its nodes, that no walk is
longer than an edge and none leads back, and that there are as many edges from definitions as uses
(`Layered.isLayered`).  A data-flow graph is layered in this sense, or it is the placeholder
(`synthesize_isLayered`).
-/
import CodeDiagram.Proofs.DataFlow.Layering
import CodeDiagram.Proofs.DataFlow.Uses
import CodeDiagram.Proofs.FrontEnd.Bindings
import CodeDiagram.Proofs.Graph.Distance

namespace CodeDiagram

namespace Graph

/-- The number of edges that start at a node. -/
def outDegree (g : Graph) (id : NodeId) : Nat := g.edges.countP (·.source == id)

end Graph

namespace DataFlow

open CodeDiagram.Graph Syntax

variable {g : Graph}

/-! ## 1. What the invariant says -/

/-- The layers of a data-flow graph, with the degrees of their nodes. -/
structure IsLayered (g : Graph) : Prop where
  /-- Identities ascend, and edges join nodes that are there. -/
  sound : g.Sound
  roles : ∀ v ∈ g.nodes, (v.type, v.kind) ∈ roles
  use : ∀ u ∈ g.nodesOf .useSite, g.inDegree u.id = 1 ∧ g.outDegree u.id = 0 ∧
    ∃ v ∈ g.nodes, v.kind ∈ definitionKinds ∧ v.id < u.id ∧
      ⟨v.id, u.id, some .defines⟩ ∈ g.edges
  definition : ∀ v ∈ g.nodes, v.kind ∈ definitionKinds → g.inDegree v.id = 0
  parameter : ∀ p ∈ g.nodesOf .parameter, ∃ v ∈ g.nodesOf .function, v.line = p.line ∧
    g.edges.filter (fun e => e.source == p.id && e.relation == some .uses) =
      [⟨p.id, v.id, some .uses⟩]
  function : ∀ v ∈ g.nodesOf .function, g.outDegree v.id = 0 ∧
    ∀ e ∈ g.edges, e.target = v.id →
      e.relation = some .uses ∧ ∃ p ∈ g.nodesOf .parameter, p.id = e.source
  edges : ∀ e ∈ g.edges, IsDefines g e ∨ IsUses g e
  walks : ∀ a b n, g.Walk a b n → n ≤ 1
  acyclic : ∀ a n, g.Walk a a n → n = 0
  apart : ∀ e ∈ g.edges, ∀ u ∈ g.nodesOf .useSite, ∀ w ∈ g.nodesOf .useSite,
    ¬ (e.source = u.id ∧ e.target = w.id)
  count : g.definesEdges.length = (g.nodesOf .useSite).length

namespace Layered

/-- Nodes of one identity are of one kind. -/
theorem kind_eq (h : Layered g) {v w : Vertex} (hv : v ∈ g.nodes) (hw : w ∈ g.nodes)
    (he : v.id = w.id) : v.kind = w.kind :=
  congrArg Vertex.kind (h.sound.eq_of_id_eq hv hw he)

/-- Edges start at definitions. -/
theorem source_mem (h : Layered g) {e : Edge} (he : e ∈ g.edges) {v : Vertex} (hv : v ∈ g.nodes)
    (hs : e.source = v.id) : v.kind ∈ definitionKinds := by
  rcases h.edges e he with ⟨-, -, ⟨w, hw, hid, hkind⟩, -⟩ | ⟨-, w, hw, -, -, hid, -, hkind, -⟩
  · exact h.kind_eq hw hv (hid.trans hs) ▸ hkind
  · rw [← h.kind_eq hw hv (hid.trans hs), hkind]
    exact List.mem_cons_self

/-- Edges end at uses and functions: an edge to a use makes it a use, any other is one from a
parameter to a function. -/
theorem target_kind (h : Layered g) {e : Edge} (he : e ∈ g.edges) {v : Vertex} (hv : v ∈ g.nodes)
    (ht : e.target = v.id) :
    e.relation = some .defines ∧ v.kind = .useSite ∨
      e.relation = some .uses ∧ v.kind = .function := by
  rcases h.edges e he with ⟨hr, -, -, w, hw, hid, hkind⟩ | ⟨hr, -, -, w, hw, -, hid, -, hkind, -⟩
  · exact Or.inl ⟨hr, h.kind_eq hw hv (hid.trans ht) ▸ hkind⟩
  · exact Or.inr ⟨hr, h.kind_eq hw hv (hid.trans ht) ▸ hkind⟩

theorem outDegree_eq_zero (h : Layered g) {v : Vertex} (hv : v ∈ g.nodes)
    (hkind : v.kind ∉ definitionKinds) : g.outDegree v.id = 0 := by
  rw [outDegree, List.countP_eq_zero]
  exact fun e he hs => hkind (h.source_mem he hv (beq_iff_eq.mp hs))

/-- The edges to a use are those that it owns. -/
theorem inDegree_use (h : Layered g) {u : Vertex} (hu : u ∈ g.nodes) (hkind : u.kind = .useSite) :
    g.inDegree u.id = 1 := by
  rw [inDegree, List.countP_congr (q := (owner · == u.id)), h.owned u hu, hkind]
  · rfl
  · intro e he
    rw [beq_iff_eq, beq_iff_eq]
    unfold owner
    split
    · rfl
    · rename_i hne
      constructor
      · intro ht
        rcases h.target_kind he hu ht with ⟨hr, -⟩ | ⟨-, hk⟩
        · exact absurd hr hne
        · exact absurd (hkind.symm.trans hk) NodeKind.noConfusion
      · intro hs
        exact absurd (h.source_mem he hu hs) (by simp [hkind, definitionKinds])

theorem inDegree_definition (h : Layered g) {v : Vertex} (hv : v ∈ g.nodes)
    (hkind : v.kind ∈ definitionKinds) : g.inDegree v.id = 0 := by
  rw [inDegree, List.countP_eq_zero]
  intro e he ht
  rcases h.target_kind he hv (beq_iff_eq.mp ht) with ⟨-, hk⟩ | ⟨-, hk⟩ <;>
    simp [hk, definitionKinds] at hkind

/-- A use has an edge from a definition that was added before it. -/
theorem exists_definition (h : Layered g) {u : Vertex} (hu : u ∈ g.nodes)
    (hkind : u.kind = .useSite) : ∃ v ∈ g.nodes, v.kind ∈ definitionKinds ∧ v.id < u.id ∧
      ⟨v.id, u.id, some .defines⟩ ∈ g.edges := by
  have hpos : 0 < g.inDegree u.id := by simp [h.inDegree_use hu hkind]
  obtain ⟨e, he, ht⟩ := List.countP_pos_iff.mp hpos
  have ht := beq_iff_eq.mp ht
  rcases h.edges e he with ⟨hr, hlt, ⟨v, hv, hid, hvk⟩, -⟩ | ⟨-, -, -, w, hw, -, hid, -, hk, -⟩
  · refine ⟨v, hv, hvk, by rwa [hid, ← ht], ?_⟩
    rw [hid, ← ht, ← hr]
    exact he
  · exact absurd ((h.kind_eq hw hu (hid.trans ht)).symm.trans hk) (by simp [hkind])

/-- The `uses` edges from a parameter are those that it owns, one to a function. -/
theorem uses_parameter (h : Layered g) {p : Vertex} (hp : p ∈ g.nodes)
    (hkind : p.kind = .parameter) : ∃ v ∈ g.nodesOf .function, v.line = p.line ∧
      g.edges.filter (fun e => e.source == p.id && e.relation == some .uses) =
        [⟨p.id, v.id, some .uses⟩] := by
  have howned : ∀ e ∈ g.edges,
      (e.source == p.id && e.relation == some .uses) = (owner e == p.id) := by
    intro e he
    rw [Bool.eq_iff_iff, Bool.and_eq_true, beq_iff_eq, beq_iff_eq, beq_iff_eq, owner]
    rcases h.edges e he with ⟨hr, -, -, u, hu, hid, hk⟩ | ⟨hr, -⟩
    · have hne : e.target ≠ p.id := fun ht =>
        absurd ((h.kind_eq hu hp (hid.trans ht)).symm.trans hk) (by simp [hkind])
      simp [hr, hne]
    · simp [hr]
  have hone : (g.edges.filter fun e => e.source == p.id && e.relation == some .uses).length =
      1 := by
    rw [List.filter_congr howned, ← List.countP_eq_length_filter, h.owned p hp, hkind]
    rfl
  obtain ⟨e, hfilter⟩ := List.length_eq_one_iff.mp hone
  have hmem : e ∈ g.edges.filter fun e => e.source == p.id && e.relation == some .uses :=
    hfilter ▸ List.mem_singleton_self e
  obtain ⟨he, hs⟩ := List.mem_filter.mp hmem
  obtain ⟨hs, hr⟩ := Bool.and_eq_true_iff.mp hs
  have hs := beq_iff_eq.mp hs
  have hr := beq_iff_eq.mp hr
  rcases h.edges e he with ⟨hd, -⟩ | ⟨-, q, hq, v, hv, hqid, hvid, -, hvk, hline⟩
  · exact absurd (hr.symm.trans hd) (by simp)
  · refine ⟨v, mem_nodesOf.mpr ⟨hv, hvk⟩, ?_, ?_⟩
    · rw [hline, h.sound.eq_of_id_eq hq hp (hqid.trans hs)]
    · rw [hfilter, ← hs, hvid, ← hr]

/-- No edge goes on from where another ends: it would start at a definition. -/
theorem target_ne_source (h : Layered g) {e e' : Edge} (he : e ∈ g.edges) (he' : e' ∈ g.edges) :
    e.target ≠ e'.source := by
  intro heq
  obtain ⟨v, hv, hid⟩ := List.mem_map.mp (h.sound.joined e he).2
  have hkind := h.source_mem he' hv (heq.symm.trans hid.symm)
  rcases h.target_kind he hv hid.symm with ⟨-, hk⟩ | ⟨-, hk⟩ <;>
    simp [hk, definitionKinds] at hkind

/-- No walk is longer than an edge. -/
theorem walk_le_one (h : Layered g) {a b n : Nat} (hw : g.Walk a b n) : n ≤ 1 := by
  cases hw with
  | nil => exact Nat.zero_le 1
  | snoc hw hc =>
    cases hw with
    | nil => exact Nat.le_refl 1
    | snoc hw hc' =>
      obtain ⟨e, he, hs, -⟩ := mem_targets.mp hc
      obtain ⟨e', he', -, ht⟩ := mem_targets.mp hc'
      exact absurd (ht.trans hs.symm) (h.target_ne_source he' he)

/-- No walk leads back. -/
theorem walk_self (h : Layered g) {a n : Nat} (hw : g.Walk a a n) : n = 0 := by
  have hle := h.walk_le_one hw
  cases hw with
  | nil => rfl
  | @snoc b _ n hw hc =>
    obtain rfl : n = 0 := by omega
    cases hw
    obtain ⟨e, he, hs, ht⟩ := mem_targets.mp hc
    exact absurd (ht.trans hs.symm) (h.target_ne_source he he)

/-- **What the invariant says of degrees, walks and numbers.** -/
theorem isLayered (h : Layered g) (hcount : g.definesEdges.length = (g.nodesOf .useSite).length) :
    IsLayered g where
  sound := h.sound
  roles := h.roles
  use u hu := by
    obtain ⟨hu, hkind⟩ := mem_nodesOf.mp hu
    exact ⟨h.inDegree_use hu hkind, h.outDegree_eq_zero hu (by simp [hkind, definitionKinds]),
      h.exists_definition hu hkind⟩
  definition v hv hkind := h.inDegree_definition hv hkind
  parameter p hp := by
    obtain ⟨hp, hkind⟩ := mem_nodesOf.mp hp
    exact h.uses_parameter hp hkind
  function v hv := by
    obtain ⟨hv, hkind⟩ := mem_nodesOf.mp hv
    refine ⟨h.outDegree_eq_zero hv (by simp [hkind, definitionKinds]), fun e he ht => ?_⟩
    rcases h.edges e he with ⟨-, -, -, u, hu, hid, hk⟩ | ⟨hr, p, hp, -, -, hid, -, hk, -⟩
    · exact absurd ((h.kind_eq hu hv (hid.trans ht)).symm.trans hk) (by simp [hkind])
    · exact ⟨hr, p, mem_nodesOf.mpr ⟨hp, hk⟩, hid⟩
  edges := h.edges
  walks _ _ _ hw := h.walk_le_one hw
  acyclic _ _ hw := h.walk_self hw
  apart e he u hu w _ := by
    rintro ⟨hs, -⟩
    obtain ⟨hu, hkind⟩ := mem_nodesOf.mp hu
    exact absurd (h.source_mem he hu hs) (by simp [hkind, definitionKinds])
  count := hcount

end Layered

/-! ## 2. The data flow of a document -/

/-- Nothing is declared beforehand, and the walk enters no function and binds no name. -/
def IsIdle (functions : List FunctionInfo) (events : List Event) : Prop :=
  functions = [] ∧ (∀ name line ps, .enter name line ps ∉ events) ∧ ∀ b, .define b ∉ events

theorem isIdle_iff {functions : List FunctionInfo} {events : List Event} :
    IsIdle functions events ↔ functions = [] ∧ ∀ e ∈ events, e.isRead = true := by
  refine and_congr_right fun _ => ⟨?_, ?_⟩
  · rintro ⟨henter, hdefine⟩ e he
    cases e with
    | enter name line ps => exact absurd he (henter name line ps)
    | define b => exact absurd he (hdefine b)
    | read name line => rfl
  · intro hall
    exact ⟨fun name line ps he => Bool.false_ne_true (hall _ he),
      fun b he => Bool.false_ne_true (hall _ he)⟩

/-- There are as many edges from definitions as uses. -/
theorem length_definesEdges (fe : FrontEnd) (functions : List FunctionInfo) (d : Document) :
    (synthesize fe functions d).definesEdges.length =
      ((synthesize fe functions d).nodesOf .useSite).length := by
  obtain ⟨-, -, huses, hdefines⟩ := synthesize_shows fe functions d
  rw [huses, hdefines, (uses_stateAt _).1, (uses_stateAt _).2, List.length_map, List.length_map]

/-- **A data-flow graph is layered**, or it is the placeholder; the latter exactly if nothing is
declared, entered or bound.  This holds whatever functions are declared beforehand. -/
theorem synthesize_isLayered (l : Language) (functions : List FunctionInfo) (d : Document) :
    ((synthesize l.frontEnd functions d).nodes =
        [⟨0, "message", .message, noDependencies, none⟩] ∧
      (synthesize l.frontEnd functions d).edges = [] ↔
        IsIdle functions (d.flow l.frontEnd)) ∧
    (IsIdle functions (d.flow l.frontEnd) ∨ IsLayered (synthesize l.frontEnd functions d)) := by
  have hcount := length_definesEdges l.frontEnd functions d
  obtain ⟨hdeclared, hfunctions⟩ := stratified_empty.declareAll functions
  obtain ⟨hrun, hnodes⟩ := hdeclared.run fun b hb => binding_ne_parameter_of_mem_flow l hb
  have hidle : ((d.flow l.frontEnd).foldl DataFlow.record (declareAll functions)).graph.nodes = [] ↔
      IsIdle functions (d.flow l.frontEnd) := by
    rw [isIdle_iff, declareAll, hnodes, hfunctions]
    exact and_congr_left' (and_iff_right rfl)
  by_cases h : IsIdle functions (d.flow l.frontEnd)
  · have hempty := List.isEmpty_iff.mpr (hidle.mpr h)
    have hplaceholder : synthesize l.frontEnd functions d =
        .placeholder "message" .message noDependencies := if_pos hempty
    exact ⟨iff_of_true (hplaceholder ▸ ⟨rfl, rfl⟩) h, Or.inl h⟩
  · have hempty : ¬ ((d.flow l.frontEnd).foldl DataFlow.record
        (declareAll functions)).graph.isEmpty = true := fun he =>
      h (hidle.mp (List.isEmpty_iff.mp he))
    have hgraph : synthesize l.frontEnd functions d =
        ((d.flow l.frontEnd).foldl DataFlow.record (declareAll functions)).graph := if_neg hempty
    have hlayered : Layered (synthesize l.frontEnd functions d) := hgraph ▸ hrun.layered
    refine ⟨iff_of_false ?_ h, Or.inr (hlayered.isLayered hcount)⟩
    -- no node of a layer is a message
    rintro ⟨hmessage, -⟩
    have hrole := hlayered.roles _ (hmessage ▸ List.mem_singleton_self _)
    simp [DataFlow.roles] at hrole

end DataFlow

end CodeDiagram
