/-
# What events do to a data-flow graph

`DataFlow.record` turns events into a graph, one after the other.  Two things are said of a step:
`Known.record` keeps the names that are defined and the functions that are declared among the nodes
of the graph, and `uses_record` and `defines_record` give the nodes and edges that a read adds,
which nothing else does.
-/
import CodeDiagram.Diagram.DataFlow
import CodeDiagram.Proofs.Graph.Sound

namespace CodeDiagram

/-! ## 1. Growing without uses -/

namespace Graph

/-- The edges from definitions to uses, in order. -/
def definesEdges (g : Graph) : List Edge := g.edges.filter (·.relation == some .defines)

theorem mem_definesEdges {g : Graph} {e : Edge} :
    e ∈ g.definesEdges ↔ e ∈ g.edges ∧ e.relation = some .defines := by
  rw [definesEdges, List.mem_filter, beq_iff_eq]

/-- A graph has grown by nodes that are no uses and by edges that lead to none. -/
structure Quiet (g g' : Graph) : Prop where
  sound : g.Sound → g'.Sound
  nodes : ∀ v ∈ g.nodes, v ∈ g'.nodes
  nextId : g.nextId ≤ g'.nextId
  uses : g'.nodesOf .useSite = g.nodesOf .useSite
  defines : g'.definesEdges = g.definesEdges

namespace Quiet

variable {g g' g'' : Graph}

theorem refl (g : Graph) : g.Quiet g := ⟨id, fun _ h => h, Nat.le_refl _, rfl, rfl⟩

theorem trans (h : g.Quiet g') (h' : g'.Quiet g'') : g.Quiet g'' where
  sound := h'.sound ∘ h.sound
  nodes v hv := h'.nodes v (h.nodes v hv)
  nextId := Nat.le_trans h.nextId h'.nextId
  uses := h'.uses.trans h.uses
  defines := h'.defines.trans h.defines

theorem addNode (g : Graph) (type : String) {kind : NodeKind} (hk : kind ≠ .useSite)
    (label : String) (line : Option Nat) : g.Quiet (g.addNode type kind label line).1 where
  sound h := h.addNode _ _ _ _
  nodes v hv := List.mem_append_left _ hv
  nextId := Nat.le_succ _
  uses := by
    rw [nodesOf_addNode, if_neg hk, List.append_nil]
  defines := rfl

theorem addEdge (g : Graph) {e : Edge} (he : e.relation ≠ some .defines) :
    g.Quiet (g.addEdge e) where
  sound h := h.addEdge e
  nodes v hv := by rwa [nodes_addEdge]
  nextId := Nat.le_of_eq (nextId_addEdge g e).symm
  uses := nodesOf_addEdge g e .useSite
  defines := by
    have hno : (e.relation == some .defines) = false := by simpa using he
    rw [definesEdges, definesEdges, Graph.addEdge]
    split
    · rw [List.filter_append, List.filter_singleton, hno, cond_false, List.append_nil]
    · rfl

end Quiet

end Graph

namespace DataFlow

open CodeDiagram.Graph

variable {f : DataFlow}

/-! ## 2. Steps that add no use -/

/-- A node of a graph stands for a parameter of a function on a line. -/
def IsParameter (g : Graph) (line : Nat) (id : NodeId) : Prop :=
  ∃ v ∈ g.nodes, v.id = id ∧ v.kind = .parameter ∧ v.line = some line

theorem IsParameter.mono {g g' : Graph} {line : Nat} {id : NodeId} (h : IsParameter g line id)
    (hg : ∀ v ∈ g.nodes, v ∈ g'.nodes) : IsParameter g' line id := by
  obtain ⟨v, hv, hrest⟩ := h
  exact ⟨v, hg v hv, hrest⟩

theorem IsParameter.mem_ids {g : Graph} {line : Nat} {id : NodeId} (h : IsParameter g line id) :
    id ∈ g.ids := by
  obtain ⟨v, hv, rfl, -⟩ := h
  exact List.mem_map_of_mem hv

/-- Parameters are added quietly, and each gets a node. -/
theorem addParameters_quiet (function : NodeId) (line : Nat) (g : Graph)
    (parameters : List String) :
    g.Quiet (addParameters function line g parameters).1 ∧
      ∀ id ∈ (addParameters function line g parameters).2,
        IsParameter (addParameters function line g parameters).1 line id := by
  induction parameters generalizing g with
  | nil => exact ⟨.refl g, by simp [addParameters]⟩
  | cons p ps ih =>
    have hp : g.Quiet (g.addNode "parameter" .parameter p (some line)).1 :=
      .addNode g _ NodeKind.noConfusion _ _
    have he := Quiet.addEdge (g.addNode "parameter" .parameter p (some line)).1
      (e := ⟨g.nextId, function, some .uses⟩) (by simp)
    obtain ⟨hps, hids⟩ := ih ((g.addNode "parameter" .parameter p (some line)).1.addEdge
      ⟨g.nextId, function, some .uses⟩)
    refine ⟨(hp.trans he).trans hps, fun id hid => ?_⟩
    rcases List.mem_cons.mp hid with rfl | hid
    · have hnew : IsParameter (g.addNode "parameter" .parameter p (some line)).1 line g.nextId :=
        ⟨_, List.mem_append_right _ List.mem_cons_self, rfl, rfl, rfl⟩
      exact hnew.mono (he.trans hps).nodes
    · exact hids id hid

/-- What is known is in the graph: the nodes of definitions and of parameters. -/
structure Known (f : DataFlow) : Prop where
  sound : f.graph.Sound
  definitions : ∀ p ∈ f.definitions, p.2 ∈ f.graph.ids
  declared : ∀ p ∈ f.declared, ∀ id ∈ p.2, IsParameter f.graph p.1.2 id

theorem known_empty : Known {} where
  sound := .empty
  definitions := by simp
  declared := by simp

theorem mem_ids_of_nodes {g g' : Graph} (h : ∀ v ∈ g.nodes, v ∈ g'.nodes) {id : NodeId}
    (hid : id ∈ g.ids) : id ∈ g'.ids := by
  obtain ⟨v, hv, rfl⟩ := List.mem_map.mp hid
  exact List.mem_map_of_mem (h v hv)

/-- Declaring a function adds no use, and its parameters are nodes. -/
theorem declare_quiet (f : DataFlow) (name : String) (line : Nat) (parameters : List String) :
    f.graph.Quiet (f.declare name line parameters).1.graph ∧
      ∀ id ∈ (f.declare name line parameters).2,
        IsParameter (f.declare name line parameters).1.graph line id := by
  have hf : f.graph.Quiet (f.graph.addNode "function" .function name (some line)).1 :=
    .addNode f.graph _ NodeKind.noConfusion _ _
  obtain ⟨hps, hids⟩ := addParameters_quiet f.graph.nextId line
    (f.graph.addNode "function" .function name (some line)).1 parameters
  exact ⟨hf.trans hps, hids⟩

theorem Known.declare (h : f.Known) (name : String) (line : Nat) (parameters : List String) :
    (f.declare name line parameters).1.Known := by
  obtain ⟨hq, hids⟩ := declare_quiet f name line parameters
  refine ⟨hq.sound h.sound, fun p hp => mem_ids_of_nodes hq.nodes (h.definitions p hp),
    fun p hp => ?_⟩
  rcases List.mem_cons.mp hp with rfl | hp
  · exact hids
  · exact fun id hid => (h.declared p hp id hid).mono hq.nodes

/-- The parameters of a function that is about to be entered are nodes. -/
theorem Known.prepare (h : f.Known) (name : String) (line : Nat) (parameters : List String) :
    (f.prepare name line parameters).1.Known ∧ ∀ id ∈ (f.prepare name line parameters).2,
      IsParameter (f.prepare name line parameters).1.graph line id := by
  unfold DataFlow.prepare
  split
  · rename_i ids hids
    obtain ⟨l, r, hl, -⟩ := List.lookup_eq_some_iff.mp hids
    exact ⟨h, h.declared ((name, line), ids) (by simp [hl])⟩
  · exact ⟨h.declare name line parameters, (declare_quiet f name line parameters).2⟩

theorem prepare_quiet (f : DataFlow) (name : String) (line : Nat) (parameters : List String) :
    f.graph.Quiet (f.prepare name line parameters).1.graph := by
  unfold prepare
  split
  · exact .refl _
  · exact (declare_quiet f name line parameters).1

/-! ## 3. What an event binds -/

/-- The names that an event binds in a state, with the nodes that they are bound to.  The parameters
of a function are those that it was declared with, if it was declared before. -/
def bindings (f : DataFlow) : Event → List (String × NodeId)
  | .define bound => [(bound.name, f.graph.nextId)]
  | .enter name line parameters => parameters.zip (f.prepare name line parameters).2
  | .read _ _ => []

theorem foldl_assign (f : DataFlow) (pairs : List (String × NodeId)) :
    pairs.foldl (fun f (p, id) => f.assign p id) f =
      { f with definitions := pairs.reverse ++ f.definitions } := by
  induction pairs generalizing f with
  | nil => rfl
  | cons x pairs ih =>
    rw [List.foldl_cons, ih, List.reverse_cons, List.append_assoc]
    rfl

theorem enter_eq (f : DataFlow) (name : String) (line : Nat) (parameters : List String) :
    f.enter name line parameters =
      { (f.prepare name line parameters).1 with
        definitions := (f.bindings (.enter name line parameters)).reverse ++
          (f.prepare name line parameters).1.definitions } :=
  foldl_assign (f.prepare name line parameters).1 (f.bindings (.enter name line parameters))

/-- **The latest bindings come first** among the definitions. -/
theorem definitions_record (f : DataFlow) (e : Event) :
    (f.record e).definitions = (f.bindings e).reverse ++ f.definitions := by
  cases e with
  | define bound => rfl
  | enter name line parameters =>
    rw [record, enter_eq]
    unfold prepare
    split <;> rfl
  | read name line =>
    rw [record, DataFlow.read]
    split <;> rfl

/-! ## 4. One event -/

/-- The node of a read that is linked, and the edge to it. -/
def useOf (f : DataFlow) : Event → Option (Vertex × Edge)
  | .read name line => (f.definitions.lookup name).map fun definition =>
    (⟨f.graph.nextId, "use", .useSite, name, some line⟩,
     ⟨definition, f.graph.nextId, some .defines⟩)
  | _ => none

/-- A name that is bound gets a node of its own. -/
theorem graph_record_define (f : DataFlow) (bound : BoundName) :
    (f.record (.define bound)).graph = (f.graph.addNode (bindingNode bound.binding).1
      (bindingNode bound.binding).2 bound.name (some bound.line)).1 := rfl

/-- What is bound or entered leaves no use. -/
theorem record_quiet (f : DataFlow) {e : Event} (he : ∀ name line, e ≠ .read name line) :
    f.graph.Quiet (f.record e).graph := by
  cases e with
  | read name line => exact absurd rfl (he name line)
  | define bound =>
    rw [graph_record_define]
    refine .addNode f.graph _ ?_ _ _
    cases bound.binding <;> exact NodeKind.noConfusion
  | enter name line parameters =>
    rw [record, enter_eq]
    exact prepare_quiet f name line parameters

/-- No event removes a node. -/
theorem nodes_record (f : DataFlow) (e : Event) :
    ∀ v ∈ f.graph.nodes, v ∈ (f.record e).graph.nodes := by
  cases e with
  | define bound => exact (record_quiet f (by simp)).nodes
  | enter name line parameters => exact (record_quiet f (by simp)).nodes
  | read name line =>
    intro v hv
    rw [record, DataFlow.read]
    split
    · exact hv
    · rw [nodes_addEdge]
      exact List.mem_append_left _ hv

/-- No event gives an identity back, and a read that is linked takes one. -/
theorem nextId_record (f : DataFlow) (e : Event) :
    f.graph.nextId + (f.useOf e).toList.length ≤ (f.record e).graph.nextId := by
  cases e with
  | define bound => exact (record_quiet f (e := .define bound) (by simp)).nextId
  | enter name line parameters =>
    exact (record_quiet f (e := .enter name line parameters) (by simp)).nextId
  | read name line =>
    rw [record, DataFlow.read, useOf]
    cases f.definitions.lookup name with
    | none => exact Nat.le_refl _
    | some definition => simp

/-- A read of a name that nothing defines leaves no trace. -/
theorem record_read_of_none {name : String} (h : f.definitions.lookup name = none) (line : Nat) :
    f.record (.read name line) = f := by
  rw [record, DataFlow.read, h]

/-- A read of a defined name adds a node and an edge to it. -/
theorem record_read_of_some (hf : f.Known) {name : String} {definition : NodeId}
    (h : f.definitions.lookup name = some definition) (line : Nat) :
    (f.record (.read name line)).graph.nodes =
        f.graph.nodes ++ [⟨f.graph.nextId, "use", .useSite, name, some line⟩] ∧
      (f.record (.read name line)).graph.edges =
        f.graph.edges ++ [⟨definition, f.graph.nextId, some .defines⟩] := by
  obtain ⟨l, r, hl, -⟩ := List.lookup_eq_some_iff.mp h
  have hmem : definition ∈ f.graph.ids := hf.definitions (name, definition) (by simp [hl])
  rw [record, DataFlow.read, h]
  refine ⟨?_, ?_⟩
  · exact nodes_addEdge _ _
  · exact hf.sound.edges_addNode_addEdge hmem "use" .useSite name (some line) (some .defines)

/-- **An event keeps what is known.** -/
theorem Known.record (h : f.Known) (e : Event) : (f.record e).Known := by
  cases e with
  | define bound =>
    have hq : f.graph.Quiet ((f.record (.define bound)).graph) :=
      record_quiet f (by simp)
    refine ⟨hq.sound h.sound, fun p hp => ?_,
      fun p hp id hid => (h.declared p hp id hid).mono hq.nodes⟩
    rcases List.mem_cons.mp hp with rfl | hp
    · show f.graph.nextId ∈ (f.graph.addNode _ _ _ _).1.ids
      rw [ids_addNode]
      exact List.mem_append_right _ List.mem_cons_self
    · exact mem_ids_of_nodes hq.nodes (h.definitions p hp)
  | enter name line parameters =>
    obtain ⟨hk, hids⟩ := h.prepare name line parameters
    rw [DataFlow.record, enter_eq]
    refine ⟨hk.sound, fun p hp => ?_, hk.declared⟩
    rcases List.mem_append.mp hp with hp | hp
    · exact (hids _ (List.of_mem_zip (List.mem_reverse.mp hp)).2).mem_ids
    · exact hk.definitions p hp
  | read name line =>
    cases hd : f.definitions.lookup name with
    | none => rwa [record_read_of_none hd]
    | some definition =>
      have hnodes := nodes_record f (.read name line)
      rw [DataFlow.record, DataFlow.read, hd] at *
      exact ⟨(h.sound.addNode _ _ _ _).addEdge _,
        fun p hp => mem_ids_of_nodes hnodes (h.definitions p hp),
        fun p hp id hid => (h.declared p hp id hid).mono hnodes⟩

/-- The uses are the nodes of the reads that are linked. -/
theorem uses_record (h : f.Known) (e : Event) : (f.record e).graph.nodesOf .useSite =
    f.graph.nodesOf .useSite ++ ((f.useOf e).map (·.1)).toList := by
  cases e with
  | define bound => simpa [useOf] using (record_quiet f (e := .define bound) (by simp)).uses
  | enter name line parameters =>
    simpa [useOf] using (record_quiet f (e := .enter name line parameters) (by simp)).uses
  | read name line =>
    cases hd : f.definitions.lookup name with
    | none => simp [record_read_of_none hd, useOf, hd]
    | some definition =>
      rw [nodesOf, (record_read_of_some h hd line).1, List.filter_append, useOf, hd]
      rfl

/-- The `defines` edges are those of the reads that are linked. -/
theorem defines_record (h : f.Known) (e : Event) : (f.record e).graph.definesEdges =
    f.graph.definesEdges ++ ((f.useOf e).map (·.2)).toList := by
  cases e with
  | define bound => simpa [useOf] using (record_quiet f (e := .define bound) (by simp)).defines
  | enter name line parameters =>
    simpa [useOf] using (record_quiet f (e := .enter name line parameters) (by simp)).defines
  | read name line =>
    cases hd : f.definitions.lookup name with
    | none => simp [record_read_of_none hd, useOf, hd]
    | some definition =>
      rw [definesEdges, (record_read_of_some h hd line).2, List.filter_append, useOf, hd]
      rfl

end DataFlow

end CodeDiagram
