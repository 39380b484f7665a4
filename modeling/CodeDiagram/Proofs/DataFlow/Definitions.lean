/-
# The definitions in a data-flow graph

Definitions are added to a graph for the parameters of the functions that are declared and for the
names that the walk binds; a function that is only entered is declared then.  The definitions of the
finished graph are listed by what was declared beforehand and by the events (`defined_synthesize`).
-/
import CodeDiagram.Proofs.DataFlow.Uses
import CodeDiagram.Proofs.FrontEnd.Bindings

namespace CodeDiagram

/-- A bound name as graphs show it: its name, its line and the type of its node. -/
def VariableInfo.shape (v : VariableInfo) : String × Option Nat × String :=
  (v.name, some v.line, (DataFlow.bindingNode v.binding).1)

namespace Graph

/-- The definitions of a graph, each with its name, its line and its type. -/
def defined (g : Graph) : List (String × Option Nat × String) :=
  (g.nodes.filter fun v => DataFlow.definitionKinds.contains v.kind).map fun v =>
    (v.label, v.line, v.type)

theorem defined_addNode (g : Graph) (type : String) (kind : NodeKind) (label : String)
    (line : Option Nat) : (g.addNode type kind label line).1.defined =
      g.defined ++
        if DataFlow.definitionKinds.contains kind then [(label, line, type)] else [] := by
  rw [defined, nodes_addNode, List.filter_append, List.map_append, defined, List.filter_singleton]
  cases DataFlow.definitionKinds.contains kind <;> rfl

theorem defined_addEdge (g : Graph) (e : Edge) : (g.addEdge e).defined = g.defined := by
  rw [defined, nodes_addEdge, defined]

end Graph

namespace DataFlow

open Syntax

/-! ## 1. What an event adds -/

/-- The functions that are declared. -/
def keys (f : DataFlow) : List (String × Nat) := f.declared.map (·.1)

/-- The parameters of a function as variables, on its line. -/
def parametersOn (line : Nat) (ps : List String) : List VariableInfo :=
  ps.map fun p => ⟨p, line, .parameter⟩

/-- The variables that an event adds: the name that it binds, or the parameters of a function that
was not declared. -/
def added (keys : List (String × Nat)) : Event → List VariableInfo
  | .define b => [⟨b.name, b.line, b.binding⟩]
  | .enter name line ps => if keys.contains (name, line) then [] else parametersOn line ps
  | .read _ _ => []

/-- The functions that are declared after an event. -/
def keysAfter (keys : List (String × Nat)) : Event → List (String × Nat)
  | .define _ => keys
  | .enter name line _ => if keys.contains (name, line) then keys else (name, line) :: keys
  | .read _ _ => keys

theorem defined_addParameters (function : NodeId) (line : Nat) (g : Graph) (ps : List String) :
    (addParameters function line g ps).1.defined =
      g.defined ++ (parametersOn line ps).map VariableInfo.shape := by
  induction ps generalizing g with
  | nil => rw [parametersOn, List.map_nil, List.map_nil, List.append_nil, addParameters]
  | cons p ps ih =>
    rw [addParameters]
    dsimp only
    rw [ih, Graph.defined_addEdge, Graph.defined_addNode, List.append_assoc]
    rfl

theorem defined_declare (f : DataFlow) (name : String) (line : Nat) (ps : List String) :
    (f.declare name line ps).1.graph.defined =
        f.graph.defined ++ (parametersOn line ps).map VariableInfo.shape ∧
      (f.declare name line ps).1.keys = (name, line) :: f.keys := by
  refine ⟨?_, rfl⟩
  rw [declare]
  dsimp only
  rw [defined_addParameters, Graph.defined_addNode]
  simp [definitionKinds]

theorem defined_prepare (f : DataFlow) (name : String) (line : Nat) (ps : List String) :
    (f.prepare name line ps).1.graph.defined =
        f.graph.defined ++ (added f.keys (.enter name line ps)).map VariableInfo.shape ∧
      (f.prepare name line ps).1.keys = keysAfter f.keys (.enter name line ps) := by
  have hcontains : f.keys.contains (name, line) = (f.declared.lookup (name, line)).isSome := by
    rw [Bool.eq_iff_iff, List.contains_iff_mem, keys, lookup_isSome_iff_mem]
  rw [added, keysAfter, hcontains, prepare]
  cases f.declared.lookup (name, line) with
  | some ids => simp
  | none => exact defined_declare f name line ps

/-- **An event adds its variables** to the definitions, and declares the function that it enters. -/
theorem defined_record (f : DataFlow) (e : Event) :
    (f.record e).graph.defined = f.graph.defined ++ (added f.keys e).map VariableInfo.shape ∧
      (f.record e).keys = keysAfter f.keys e := by
  cases e with
  | define b =>
    refine ⟨?_, rfl⟩
    rw [record, define]
    dsimp only [assign]
    rw [Graph.defined_addNode]
    cases hb : b.binding <;> simp [bindingNode, definitionKinds, added, VariableInfo.shape, hb]
  | enter name line ps =>
    rw [record, enter_eq]
    exact defined_prepare f name line ps
  | read name line =>
    rw [record, DataFlow.read]
    cases f.definitions.lookup name with
    | none => simp [added, keysAfter]
    | some definition =>
      dsimp only
      rw [Graph.defined_addEdge, Graph.defined_addNode]
      simp [definitionKinds, added, keysAfter, keys]

/-! ## 2. The run -/

/-- The variables that events add, one after the other. -/
def addedBy (keys : List (String × Nat)) : List Event → List VariableInfo
  | [] => []
  | e :: events => added keys e ++ addedBy (keysAfter keys e) events

theorem defined_run (f : DataFlow) (events : List Event) :
    (events.foldl record f).graph.defined =
      f.graph.defined ++ (addedBy f.keys events).map VariableInfo.shape := by
  induction events generalizing f with
  | nil => rw [addedBy, List.map_nil, List.append_nil, List.foldl_nil]
  | cons e events ih =>
    obtain ⟨hdefined, hkeys⟩ := defined_record f e
    rw [List.foldl_cons, ih, hdefined, hkeys, addedBy, List.map_append, List.append_assoc]

/-- Once every function that is entered is declared, events add only the names that they bind. -/
theorem addedBy_of_declared {keys : List (String × Nat)} {events : List Event}
    (h : ∀ name line ps, .enter name line ps ∈ events → (name, line) ∈ keys) :
    addedBy keys events = events.flatMap Event.bound := by
  induction events with
  | nil => rfl
  | cons e events ih =>
    have hadded : added keys e = e.bound ∧ keysAfter keys e = keys := by
      cases e with
      | define b => exact ⟨rfl, rfl⟩
      | enter name line ps =>
        have hkey := List.contains_iff_mem.mpr (h name line ps List.mem_cons_self)
        exact ⟨if_pos hkey, if_pos hkey⟩
      | read name line => exact ⟨rfl, rfl⟩
    rw [addedBy, hadded.1, hadded.2, List.flatMap_cons,
      ih fun name line ps he => h name line ps (List.mem_cons_of_mem _ he)]

/-- The functions that are known beforehand, last one first. -/
def keysOf (functions : List FunctionInfo) : List (String × Nat) :=
  (functions.map fun i => (i.name, i.line)).reverse

theorem defined_declareAll (functions : List FunctionInfo) :
    (declareAll functions).graph.defined =
        (functions.flatMap parameterVariables).map VariableInfo.shape ∧
      (declareAll functions).keys = keysOf functions := by
  have hrun : ∀ (fs : List FunctionInfo) (f : DataFlow),
      (fs.foldl (fun f i => (f.declare i.name i.line i.parameters).1) f).graph.defined =
          f.graph.defined ++ (fs.flatMap parameterVariables).map VariableInfo.shape ∧
        (fs.foldl (fun f i => (f.declare i.name i.line i.parameters).1) f).keys =
          keysOf fs ++ f.keys := by
    intro fs
    induction fs with
    | nil => exact fun f => ⟨(List.append_nil _).symm, rfl⟩
    | cons i fs ih =>
      intro f
      obtain ⟨hdefined, hkeys⟩ := defined_declare f i.name i.line i.parameters
      obtain ⟨hdefined', hkeys'⟩ := ih (f.declare i.name i.line i.parameters).1
      rw [List.foldl_cons, hdefined', hkeys', hdefined, hkeys]
      refine ⟨?_, ?_⟩
      · rw [List.flatMap_cons, List.map_append, List.append_assoc]
        rfl
      · simp [keysOf]
  obtain ⟨hdefined, hkeys⟩ := hrun functions {}
  refine ⟨hdefined, hkeys.trans ?_⟩
  exact List.append_nil _

/-- **The definitions of a data-flow graph** are the parameters of the functions that are known
beforehand, and what the events add. -/
theorem defined_synthesize (fe : FrontEnd) (functions : List FunctionInfo) (d : Document) :
    (synthesize fe functions d).defined =
      (functions.flatMap parameterVariables ++
        addedBy (keysOf functions) (d.flow fe)).map VariableInfo.shape := by
  obtain ⟨hdefined, hkeys⟩ := defined_declareAll functions
  have hrun := defined_run (declareAll functions) (d.flow fe)
  rw [hdefined, hkeys, ← List.map_append] at hrun
  rw [← hrun, synthesize]
  split
  · -- the placeholder defines nothing, and neither does a graph without nodes
    rename_i hempty
    have hnone : ((d.flow fe).foldl record (declareAll functions)).graph.defined = [] := by
      rw [Graph.defined, List.isEmpty_iff.mp hempty]
      rfl
    rw [hnone]
    rfl
  · rfl

end DataFlow

end CodeDiagram
