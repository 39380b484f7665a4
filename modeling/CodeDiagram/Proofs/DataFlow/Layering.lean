/-
# How a data-flow graph is layered

A data-flow graph has three layers: functions, the definitions of names, and uses.  Edges lead from
parameters back to their functions and from definitions on to uses, and nowhere else.

The invariant is `Layered`: every edge is of one of the two sorts, and it was added with a node that
owns it, the use that it leads to or the parameter that it comes from.  Uses and parameters own one
edge each, other nodes none.  Declaring, entering, defining and reading all add nodes with the edges
that they own (`Layered.concat`), so the invariant holds along every run (`Stratified.run`),
whatever functions were declared beforehand.
-/
import CodeDiagram.Proofs.DataFlow.States
import CodeDiagram.Proofs.DataFlow.Visits

namespace CodeDiagram.DataFlow

open CodeDiagram.Graph

variable {g g' : Graph} {f : DataFlow}

/-! ## 1. The invariant -/

/-- The types and kinds of nodes. -/
def roles : List (String × NodeKind) :=
  [("function", .function), ("parameter", .parameter), ("field", .field),
   ("variable", .variableDecl), ("use", .useSite)]

/-- An edge leads from a definition to a later use. -/
def IsDefines (g : Graph) (e : Edge) : Prop :=
  e.relation = some .defines ∧ e.source < e.target ∧
    (∃ v ∈ g.nodes, v.id = e.source ∧ v.kind ∈ definitionKinds) ∧
    ∃ u ∈ g.nodes, u.id = e.target ∧ u.kind = .useSite

/-- An edge leads from a parameter to a function on the same line. -/
def IsUses (g : Graph) (e : Edge) : Prop :=
  e.relation = some .uses ∧ ∃ p ∈ g.nodes, ∃ v ∈ g.nodes, p.id = e.source ∧ v.id = e.target ∧
    p.kind = .parameter ∧ v.kind = .function ∧ v.line = p.line

theorem IsDefines.mono {e : Edge} (h : IsDefines g e) (hg : ∀ v ∈ g.nodes, v ∈ g'.nodes) :
    IsDefines g' e := by
  obtain ⟨hrelation, hlt, ⟨v, hv, hvs⟩, u, hu, hus⟩ := h
  exact ⟨hrelation, hlt, ⟨v, hg v hv, hvs⟩, u, hg u hu, hus⟩

theorem IsUses.mono {e : Edge} (h : IsUses g e) (hg : ∀ v ∈ g.nodes, v ∈ g'.nodes) :
    IsUses g' e := by
  obtain ⟨hrelation, p, hp, v, hv, hrest⟩ := h
  exact ⟨hrelation, p, hg p hp, v, hg v hv, hrest⟩

/-- The node that an edge was added with. -/
def owner (e : Edge) : NodeId := if e.relation = some .defines then e.target else e.source

/-- The number of edges that a node of a kind is added with. -/
def ownEdges (kind : NodeKind) : Nat := if kind = .useSite ∨ kind = .parameter then 1 else 0

/-- Every edge joins layers and belongs to one node, and nodes have the edges that they were added
with. -/
structure Layered (g : Graph) : Prop where
  sound : g.Sound
  roles : ∀ v ∈ g.nodes, (v.type, v.kind) ∈ roles
  edges : ∀ e ∈ g.edges, IsDefines g e ∨ IsUses g e
  owned : ∀ v ∈ g.nodes, g.edges.countP (owner · == v.id) = ownEdges v.kind

theorem layered_empty : Layered Graph.empty where
  sound := .empty
  roles := by simp [Graph.empty]
  edges := by simp [Graph.empty]
  owned := by simp [Graph.empty]

theorem owner_mem_ids (h : g.Sound) {e : Edge} (he : e ∈ g.edges) : owner e ∈ g.ids := by
  obtain ⟨hs, ht⟩ := h.joined e he
  unfold owner
  split
  · exact ht
  · exact hs

/-! ## 2. Adding a node with its edges -/

/-- **A node is added with the edges that it owns.** -/
theorem Layered.concat (h : Layered g) {v : Vertex} {es : List Edge} (hv : v.id = g.nextId)
    (hnodes : g'.nodes = g.nodes ++ [v]) (hedges : g'.edges = g.edges ++ es) (hsound : g'.Sound)
    (hrole : (v.type, v.kind) ∈ DataFlow.roles)
    (hes : ∀ e ∈ es, (IsDefines g' e ∨ IsUses g' e) ∧ owner e = v.id)
    (hlength : es.length = ownEdges v.kind) : Layered g' := by
  have hold : ∀ w ∈ g.nodes, w ∈ g'.nodes := fun w hw => hnodes ▸ List.mem_append_left _ hw
  have hnew : ∀ e ∈ g.edges, owner e ≠ v.id := fun e he heq =>
    h.sound.nextId_notMem (hv ▸ heq ▸ owner_mem_ids h.sound he)
  refine ⟨hsound, fun w hw => ?_, fun e he => ?_, fun w hw => ?_⟩
  · rw [hnodes] at hw
    rcases List.mem_append.mp hw with hw | hw
    · exact h.roles w hw
    · rwa [List.mem_singleton.mp hw]
  · rw [hedges] at he
    rcases List.mem_append.mp he with he | he
    · exact (h.edges e he).imp (·.mono hold) (·.mono hold)
    · exact (hes e he).1
  · rw [hedges, List.countP_append]
    rw [hnodes] at hw
    rcases List.mem_append.mp hw with hw | hw
    · -- what the new node owns does not belong to an old one
      have hother : es.countP (owner · == w.id) = 0 := by
        rw [List.countP_eq_zero]
        intro e he heq
        have hid : w.id = g.nextId := (beq_iff_eq.mp heq).symm.trans ((hes e he).2.trans hv)
        exact h.sound.nextId_notMem (hid ▸ List.mem_map_of_mem hw)
      rw [hother, h.owned w hw]
      rfl
    · obtain rfl := List.mem_singleton.mp hw
      have hnone : g.edges.countP (owner · == w.id) = 0 := by
        rw [List.countP_eq_zero]
        exact fun e he heq => hnew e he (beq_iff_eq.mp heq)
      have hall : es.countP (owner · == w.id) = es.length := by
        rw [List.countP_eq_length]
        exact fun e he => beq_iff_eq.mpr (hes e he).2
      rw [hnone, hall, hlength, Nat.zero_add]

/-- A function, a field or a variable is added without edges. -/
theorem Layered.addNode (h : Layered g) {type : String} {kind : NodeKind}
    (hrole : (type, kind) ∈ DataFlow.roles) (hown : ownEdges kind = 0) (label : String)
    (line : Option Nat) : Layered (g.addNode type kind label line).1 :=
  h.concat rfl rfl (List.append_nil _).symm (h.sound.addNode _ _ _ _) hrole (by simp) hown.symm

/-- A parameter is added with the edge to its function. -/
theorem Layered.addParameter (h : Layered g) {v : Vertex} (hv : v ∈ g.nodes)
    (hkind : v.kind = .function) (p : String) :
    Layered ((g.addNode "parameter" .parameter p v.line).1.addEdge
      ⟨g.nextId, v.id, some .uses⟩) := by
  have hs : (g.addNode "parameter" .parameter p v.line).1.Sound := h.sound.addNode _ _ _ _
  have hfresh : (⟨g.nextId, v.id, some .uses⟩ : Edge) ∉ g.edges := fun he =>
    h.sound.nextId_notMem (h.sound.joined _ he).1
  have hadmits : (g.addNode "parameter" .parameter p v.line).1.admits
      ⟨g.nextId, v.id, some .uses⟩ = true := by
    refine admits_eq_true.mpr ⟨?_, ?_, hfresh⟩
    · rw [ids_addNode]
      exact List.mem_append_right _ List.mem_cons_self
    · rw [ids_addNode]
      exact List.mem_append_left _ (List.mem_map_of_mem hv)
  refine h.concat (v := ⟨g.nextId, "parameter", .parameter, p, v.line⟩) rfl (nodes_addEdge _ _)
    (edges_addEdge_of_admits hadmits) (hs.addEdge _) (by simp [DataFlow.roles]) ?_ rfl
  intro e he
  obtain rfl := List.mem_singleton.mp he
  refine ⟨Or.inr ⟨rfl, ⟨g.nextId, "parameter", .parameter, p, v.line⟩, ?_, v, ?_, rfl, rfl, rfl,
    hkind, rfl⟩, rfl⟩
  · rw [nodes_addEdge]
    exact List.mem_append_right _ List.mem_cons_self
  · rw [nodes_addEdge]
    exact List.mem_append_left _ hv

/-- A use is added with the edge from its definition. -/
theorem Layered.addUse (h : Layered g) {v : Vertex} (hv : v ∈ g.nodes)
    (hkind : v.kind ∈ definitionKinds) (x : String) (line : Option Nat) :
    Layered ((g.addNode "use" .useSite x line).1.addEdge ⟨v.id, g.nextId, some .defines⟩) := by
  have hs : (g.addNode "use" .useSite x line).1.Sound := h.sound.addNode _ _ _ _
  have hmem : v.id ∈ g.ids := List.mem_map_of_mem hv
  refine h.concat (v := ⟨g.nextId, "use", .useSite, x, line⟩) rfl (nodes_addEdge _ _)
    (h.sound.edges_addNode_addEdge hmem _ _ _ _ _) (hs.addEdge _) (by simp [DataFlow.roles]) ?_ rfl
  intro e he
  obtain rfl := List.mem_singleton.mp he
  refine ⟨Or.inl ⟨rfl, h.sound.given _ hmem, ⟨v, ?_, rfl, hkind⟩,
    ⟨g.nextId, "use", .useSite, x, line⟩, ?_, rfl, rfl⟩, rfl⟩
  · rw [nodes_addEdge]
    exact List.mem_append_left _ hv
  · rw [nodes_addEdge]
    exact List.mem_append_right _ List.mem_cons_self

/-! ## 3. Adding what an event finds -/

/-- A function has a node. -/
def IsDeclared (g : Graph) (key : String × Nat) : Prop :=
  ∃ v ∈ g.nodes, v.kind = .function ∧ v.label = key.1 ∧ v.line = some key.2

/-- A graph in progress is layered, and its tables point to the layers. -/
structure Stratified (f : DataFlow) : Prop where
  known : f.Known
  layered : Layered f.graph
  definitions : ∀ p ∈ f.definitions, ∃ v ∈ f.graph.nodes, v.id = p.2 ∧ v.kind ∈ definitionKinds
  functions : ∀ p ∈ f.declared, IsDeclared f.graph p.1

theorem stratified_empty : Stratified {} where
  known := known_empty
  layered := layered_empty
  definitions := by simp
  functions := by simp

/-- Parameters are added below their function. -/
theorem Layered.addParameters (h : Layered g) {v : Vertex} (hv : v ∈ g.nodes)
    (hkind : v.kind = .function) {line : Nat} (hline : v.line = some line) (ps : List String) :
    Layered (DataFlow.addParameters v.id line g ps).1 := by
  induction ps generalizing g with
  | nil => exact h
  | cons p ps ih =>
    have hp := h.addParameter hv hkind p
    rw [hline] at hp
    refine ih hp ?_
    rw [nodes_addEdge]
    exact List.mem_append_left _ hv

/-- Declaring a function adds its node, and nothing goes. -/
theorem declare_isDeclared (f : DataFlow) (name : String) (line : Nat) (ps : List String) :
    IsDeclared (f.declare name line ps).1.graph (name, line) := by
  refine ⟨⟨f.graph.nextId, "function", .function, name, some line⟩, ?_, rfl, rfl, rfl⟩
  exact (addParameters_quiet _ line _ ps).1.nodes _ (List.mem_append_right _ List.mem_cons_self)

theorem IsDeclared.mono {key : String × Nat} (h : IsDeclared g key)
    (hg : ∀ v ∈ g.nodes, v ∈ g'.nodes) : IsDeclared g' key := by
  obtain ⟨v, hv, hrest⟩ := h
  exact ⟨v, hg v hv, hrest⟩

/-- What the tables point to stays where the graph grows. -/
theorem Stratified.grow {f' : DataFlow} (h : f.Stratified) (hknown : f'.Known)
    (hlayered : Layered f'.graph) (hg : ∀ v ∈ f.graph.nodes, v ∈ f'.graph.nodes)
    (hdefinitions : ∀ p ∈ f'.definitions, p ∈ f.definitions ∨
      ∃ v ∈ f'.graph.nodes, v.id = p.2 ∧ v.kind ∈ definitionKinds)
    (hdeclared : ∀ p ∈ f'.declared, p ∈ f.declared ∨ IsDeclared f'.graph p.1) :
    f'.Stratified where
  known := hknown
  layered := hlayered
  definitions p hp := by
    rcases hdefinitions p hp with hold | hnew
    · obtain ⟨v, hv, hrest⟩ := h.definitions p hold
      exact ⟨v, hg v hv, hrest⟩
    · exact hnew
  functions p hp := by
    rcases hdeclared p hp with hold | hnew
    · exact (h.functions p hold).mono hg
    · exact hnew

theorem Stratified.declare (h : f.Stratified) (name : String) (line : Nat) (ps : List String) :
    (f.declare name line ps).1.Stratified := by
  have hfunction : Layered (f.graph.addNode "function" .function name (some line)).1 :=
    h.layered.addNode (by simp [DataFlow.roles]) rfl _ _
  refine h.grow (h.known.declare name line ps) ?_ (declare_quiet f name line ps).1.nodes
    (fun p hp => Or.inl hp) fun p hp => ?_
  · exact hfunction.addParameters (v := ⟨f.graph.nextId, "function", .function, name, some line⟩)
      (List.mem_append_right _ List.mem_cons_self) rfl rfl ps
  · rcases List.mem_cons.mp hp with rfl | hp
    · exact Or.inr (declare_isDeclared f name line ps)
    · exact Or.inl hp

theorem Stratified.prepare (h : f.Stratified) (name : String) (line : Nat) (ps : List String) :
    (f.prepare name line ps).1.Stratified := by
  unfold DataFlow.prepare
  split
  · exact h
  · exact h.declare name line ps

/-- Entering a function makes definitions of parameters. -/
theorem Stratified.enter (h : f.Stratified) (name : String) (line : Nat) (ps : List String) :
    (f.enter name line ps).Stratified := by
  have hprepared := h.prepare name line ps
  have hknown := h.known.record (.enter name line ps)
  rw [DataFlow.record] at hknown
  rw [enter_eq] at hknown ⊢
  refine hprepared.grow hknown hprepared.layered (fun _ hv => hv) (fun p hp => ?_)
    fun p hp => Or.inl hp
  rcases List.mem_append.mp hp with hp | hp
  · obtain ⟨v, hv, hid, hkind, -⟩ := (h.known.prepare name line ps).2 p.2
      (List.of_mem_zip (List.mem_reverse.mp hp)).2
    exact Or.inr ⟨v, hv, hid, by simp [hkind, definitionKinds]⟩
  · exact Or.inl hp

/-- A name that is not bound as a parameter gets a field or a variable. -/
theorem Stratified.define (h : f.Stratified) {b : BoundName} (hb : b.binding ≠ .parameter) :
    (f.define b).Stratified := by
  have hrole : bindingNode b.binding ∈ roles ∧ ownEdges (bindingNode b.binding).2 = 0 ∧
      (bindingNode b.binding).2 ∈ definitionKinds := by
    cases hbinding : b.binding <;>
      simp_all [bindingNode, DataFlow.roles, ownEdges, definitionKinds]
  refine h.grow (h.known.record (.define b)) (h.layered.addNode hrole.1 hrole.2.1 _ _)
    (nodes_record f (.define b)) (fun p hp => ?_) fun p hp => Or.inl hp
  rcases List.mem_cons.mp hp with rfl | hp
  · exact Or.inr ⟨_, List.mem_append_right _ List.mem_cons_self, rfl, hrole.2.2⟩
  · exact Or.inl hp

/-- A read of a defined name gets a use. -/
theorem Stratified.read (h : f.Stratified) (name : String) (line : Nat) :
    (f.read name line).Stratified := by
  have hknown := h.known.record (.read name line)
  have hnodes := nodes_record f (.read name line)
  rw [DataFlow.record, DataFlow.read] at hknown hnodes
  rw [DataFlow.read]
  cases hd : f.definitions.lookup name with
  | none => exact h
  | some definition =>
    rw [hd] at hknown hnodes
    obtain ⟨l, r, hl, -⟩ := List.lookup_eq_some_iff.mp hd
    obtain ⟨v, hv, rfl, hkind⟩ := h.definitions (name, definition) (by simp [hl])
    exact h.grow hknown (h.layered.addUse hv hkind name (some line)) hnodes (fun p hp => Or.inl hp)
      fun p hp => Or.inl hp

/-- **An event keeps the layers**, if it binds no name as a parameter. -/
theorem Stratified.record (h : f.Stratified) {e : Event}
    (he : ∀ b, e = .define b → b.binding ≠ .parameter) : (f.record e).Stratified := by
  cases e with
  | enter name line ps => exact h.enter name line ps
  | define b => exact h.define (he b rfl)
  | read name line => exact h.read name line

/-! ## 4. The run -/

/-- Declaring functions keeps the layers, and leaves no node only if there is none to declare. -/
theorem Stratified.declareAll (h : f.Stratified) (fs : List FunctionInfo) :
    (fs.foldl (fun f i => (f.declare i.name i.line i.parameters).1) f).Stratified ∧
      ((fs.foldl (fun f i => (f.declare i.name i.line i.parameters).1) f).graph.nodes = [] ↔
        f.graph.nodes = [] ∧ fs = []) := by
  induction fs generalizing f with
  | nil => exact ⟨h, by simp⟩
  | cons i fs ih =>
    obtain ⟨hs, hnodes⟩ := ih (h.declare i.name i.line i.parameters)
    refine ⟨hs, hnodes.trans ?_⟩
    obtain ⟨v, hv, -⟩ := declare_isDeclared f i.name i.line i.parameters
    simp [List.ne_nil_of_mem hv]

/-- An event leaves no node only if it reads a name of a graph without nodes. -/
theorem Stratified.nodes_record_eq_nil_iff (h : f.Stratified) (e : Event) :
    (f.record e).graph.nodes = [] ↔ f.graph.nodes = [] ∧ e.isRead = true := by
  cases e with
  | define b =>
    have hne : (f.record (.define b)).graph.nodes ≠ [] := by
      simp [DataFlow.record, DataFlow.define, assign]
    simp [hne, Event.isRead]
  | enter name line ps =>
    have hdeclared : ∃ key, IsDeclared (f.record (.enter name line ps)).graph key := by
      rw [DataFlow.record, enter_eq]
      unfold DataFlow.prepare
      split
      · rename_i ids hids
        obtain ⟨l, r, hl, -⟩ := List.lookup_eq_some_iff.mp hids
        exact ⟨_, h.functions ((name, line), ids) (by simp [hl])⟩
      · exact ⟨_, declare_isDeclared f name line ps⟩
    obtain ⟨key, v, hv, -⟩ := hdeclared
    simp [List.ne_nil_of_mem hv, Event.isRead]
  | read name line =>
    cases hd : f.definitions.lookup name with
    | none => simp [record_read_of_none hd, Event.isRead]
    | some definition =>
      obtain ⟨l, r, hl, -⟩ := List.lookup_eq_some_iff.mp hd
      obtain ⟨v, hv, -⟩ := h.definitions (name, definition) (by simp [hl])
      simp [(record_read_of_some h.known hd line).1, List.ne_nil_of_mem hv]

/-- **Events keep the layers**, and leave no node only if they are reads of a graph without
nodes. -/
theorem Stratified.run (h : f.Stratified) {events : List Event}
    (he : ∀ b, .define b ∈ events → b.binding ≠ .parameter) :
    (events.foldl DataFlow.record f).Stratified ∧
      ((events.foldl DataFlow.record f).graph.nodes = [] ↔
        f.graph.nodes = [] ∧ ∀ e ∈ events, e.isRead = true) := by
  induction events generalizing f with
  | nil => exact ⟨h, by simp⟩
  | cons e events ih =>
    obtain ⟨hs, hnodes⟩ := ih (h.record fun b hb => he b (hb ▸ List.mem_cons_self))
      fun b hb => he b (List.mem_cons_of_mem _ hb)
    refine ⟨hs, hnodes.trans ?_⟩
    rw [h.nodes_record_eq_nil_iff, List.forall_mem_cons, and_assoc]

end CodeDiagram.DataFlow
