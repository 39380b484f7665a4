/-
# States along the events

A graph in progress passes through a state for every event (`stateAt`).  Two tables of a state are
read off the events before it: the definitions hold what the latest event bound a name to
(`lookup_stateAt`), and a function that is entered has nodes for the parameters that the function of
its name and line was declared with (`prepare_stateAt`).
-/
import CodeDiagram.Proofs.DataFlow.Recording
import CodeDiagram.Proofs.Table

namespace CodeDiagram.DataFlow

open CodeDiagram.Graph Syntax

variable {functions : List FunctionInfo} {events : List Event}

/-! ## 1. States along the events -/

/-- The state before the event at a position. -/
def stateAt (functions : List FunctionInfo) (events : List Event) (j : Nat) : DataFlow :=
  (events.take j).foldl record (declareAll functions)

/-- The identity that the event at a position gives to the node it adds, if it adds one. -/
def idAt (functions : List FunctionInfo) (events : List Event) (j : Nat) : NodeId :=
  (stateAt functions events j).graph.nextId

theorem stateAt_succ {j : Nat} {e : Event} (he : events[j]? = some e) :
    stateAt functions events (j + 1) = (stateAt functions events j).record e := by
  rw [stateAt, List.take_add_one, he, List.foldl_append]
  rfl

theorem stateAt_succ_of_none {j : Nat} (he : events[j]? = none) :
    stateAt functions events (j + 1) = stateAt functions events j := by
  rw [stateAt, List.take_add_one, he, Option.toList_none, List.append_nil, stateAt]

/-- What every event keeps, or what grows with it, holds along all events. -/
theorem stateAt_induction {p : DataFlow → Prop} (h : p (declareAll functions))
    (hstep : ∀ f e, p f → p (f.record e)) (j : Nat) : p (stateAt functions events j) := by
  induction j with
  | zero => exact h
  | succ j ih =>
    cases he : events[j]? with
    | none => rwa [stateAt_succ_of_none he]
    | some e =>
      rw [stateAt_succ he]
      exact hstep _ e ih

/-- The functions that are known beforehand define no name, and leave no use. -/
theorem declareAll_quiet (functions : List FunctionInfo) :
    (declareAll functions).Known ∧ (declareAll functions).definitions = [] ∧
      Graph.empty.Quiet (declareAll functions).graph := by
  have hrun : ∀ (fs : List FunctionInfo) (f : DataFlow), f.Known →
      (fs.foldl (fun f i => (f.declare i.name i.line i.parameters).1) f).Known ∧
      (fs.foldl (fun f i => (f.declare i.name i.line i.parameters).1) f).definitions =
        f.definitions ∧
      f.graph.Quiet (fs.foldl (fun f i => (f.declare i.name i.line i.parameters).1) f).graph := by
    intro fs
    induction fs with
    | nil => exact fun f hf => ⟨hf, rfl, .refl _⟩
    | cons i fs ih =>
      intro f hf
      obtain ⟨hk, hdef, hq⟩ := ih _ (hf.declare i.name i.line i.parameters)
      exact ⟨hk, hdef, (declare_quiet f i.name i.line i.parameters).1.trans hq⟩
  exact hrun functions {} known_empty

@[simp] theorem definitions_stateAt_zero (functions : List FunctionInfo) (events : List Event) :
    (stateAt functions events 0).definitions = [] := (declareAll_quiet functions).2.1

theorem known_stateAt (functions : List FunctionInfo) (events : List Event) (j : Nat) :
    (stateAt functions events j).Known :=
  stateAt_induction (declareAll_quiet functions).1 (fun _ e h => h.record e) j

/-- Nodes stay, and identities are not given back. -/
theorem stateAt_mono {i j : Nat} (hij : i ≤ j) :
    (∀ v ∈ (stateAt functions events i).graph.nodes,
      v ∈ (stateAt functions events j).graph.nodes) ∧
      idAt functions events i ≤ idAt functions events j := by
  induction hij with
  | refl => exact ⟨fun _ h => h, Nat.le_refl _⟩
  | @step j _ ih =>
    cases he : events[j]? with
    | none =>
      rw [idAt, idAt, Nat.succ_eq_add_one, stateAt_succ_of_none he]
      exact ih
    | some e =>
      rw [idAt, idAt, Nat.succ_eq_add_one, stateAt_succ he]
      exact ⟨fun v hv => nodes_record _ e v (ih.1 v hv), Nat.le_trans ih.2
        (Nat.le_trans (Nat.le_add_right _ _) (nextId_record _ e))⟩

/-! ## 2. The latest binding -/

/-- The event at a position binds a name to a node: to the node of the definition that it adds, or
to the parameter node of the function that it enters. -/
def BindsAt (functions : List FunctionInfo) (events : List Event) (i : Nat) (x : String)
    (id : NodeId) : Prop :=
  ∃ e, events[i]? = some e ∧
    ((stateAt functions events i).bindings e).reverse.lookup x = some id

/-- Of the events before a position, the latest that binds a name binds it to a node. -/
def LatestBefore (functions : List FunctionInfo) (events : List Event) (j : Nat) (x : String)
    (id : NodeId) : Prop :=
  ∃ i < j, BindsAt functions events i x id ∧
    ∀ k, i < k → k < j → ∀ id', ¬ BindsAt functions events k x id'

theorem latestBefore_succ_of_binds {j : Nat} {x : String} {id id' : NodeId}
    (h : BindsAt functions events j x id') :
    LatestBefore functions events (j + 1) x id ↔ id = id' := by
  have hsame : ∀ {id}, BindsAt functions events j x id → id = id' := by
    rintro id ⟨e, he, hid⟩
    obtain ⟨e', he', hid'⟩ := h
    obtain rfl : e = e' := Option.some.inj (he.symm.trans he')
    exact Option.some.inj (hid.symm.trans hid')
  constructor
  · rintro ⟨i, hi, hbinds, hlatest⟩
    rcases Nat.lt_succ_iff_lt_or_eq.mp hi with hi | rfl
    · exact absurd h (hlatest j hi (Nat.lt_succ_self j) id')
    · exact hsame hbinds
  · rintro rfl
    exact ⟨j, Nat.lt_succ_self j, h, fun k hj hk => by omega⟩

theorem latestBefore_succ_of_not_binds {j : Nat} {x : String} {id : NodeId}
    (h : ∀ id', ¬ BindsAt functions events j x id') :
    LatestBefore functions events (j + 1) x id ↔ LatestBefore functions events j x id := by
  constructor
  · rintro ⟨i, hi, hbinds, hlatest⟩
    rcases Nat.lt_succ_iff_lt_or_eq.mp hi with hi | rfl
    · exact ⟨i, hi, hbinds, fun k hik hk => hlatest k hik (Nat.lt_succ_of_lt hk)⟩
    · exact absurd hbinds (h id)
  · rintro ⟨i, hi, hbinds, hlatest⟩
    refine ⟨i, Nat.lt_succ_of_lt hi, hbinds, fun k hik hk => ?_⟩
    rcases Nat.lt_succ_iff_lt_or_eq.mp hk with hk | rfl
    · exact hlatest k hik hk
    · exact h

/-- **The table of definitions holds the latest bindings.** -/
theorem lookup_stateAt {j : Nat} {x : String} {id : NodeId} :
    (stateAt functions events j).definitions.lookup x = some id ↔
      LatestBefore functions events j x id := by
  induction j with
  | zero =>
    rw [definitions_stateAt_zero]
    constructor
    · intro h
      cases h
    · rintro ⟨i, hi, -⟩
      exact absurd hi (Nat.not_lt_zero i)
  | succ j ih =>
    cases he : events[j]? with
    | none =>
      rw [stateAt_succ_of_none he, ih, latestBefore_succ_of_not_binds]
      rintro id' ⟨e, he', -⟩
      rw [he] at he'
      cases he'
    | some e =>
      rw [stateAt_succ he, definitions_record, List.lookup_append]
      cases hx : ((stateAt functions events j).bindings e).reverse.lookup x with
      | none =>
        rw [Option.none_or, ih, latestBefore_succ_of_not_binds]
        rintro id' ⟨e', he', hid⟩
        obtain rfl : e = e' := Option.some.inj (he.symm.trans he')
        rw [hx] at hid
        cases hid
      | some id' =>
        rw [Option.some_or, latestBefore_succ_of_binds ⟨e, he, hx⟩, Option.some.injEq]
        exact eq_comm

/-! ## 3. What functions were declared with -/

/-- The kinds of nodes that give a name its value. -/
def definitionKinds : List NodeKind := [.parameter, .field, .variableDecl]

/-- A node of a graph defines a name. -/
def IsDefinition (g : Graph) (id : NodeId) (x : String) : Prop :=
  ∃ v ∈ g.nodes, v.id = id ∧ v.kind ∈ definitionKinds ∧ v.label = x

theorem IsDefinition.mono {g g' : Graph} {id : NodeId} {x : String} (h : IsDefinition g id x)
    (hg : ∀ v ∈ g.nodes, v ∈ g'.nodes) : IsDefinition g' id x := by
  obtain ⟨v, hv, hrest⟩ := h
  exact ⟨v, hg v hv, hrest⟩

/-- The nodes that are added for parameters define them, in order. -/
theorem addParameters_define (function : NodeId) (line : Nat) (g : Graph)
    (parameters : List String) :
    List.Forall₂ (IsDefinition (addParameters function line g parameters).1)
      (addParameters function line g parameters).2 parameters := by
  induction parameters generalizing g with
  | nil => exact .nil
  | cons p ps ih =>
    refine .cons ?_ (ih _)
    have hnew : IsDefinition (g.addNode "parameter" .parameter p (some line)).1 g.nextId p :=
      ⟨_, List.mem_append_right _ List.mem_cons_self, rfl, by simp [definitionKinds], rfl⟩
    refine hnew.mono fun v hv => (addParameters_quiet function line _ ps).1.nodes v ?_
    rw [nodes_addEdge]
    exact hv

/-- What functions are declared with, those of a name and line that count first.  Of the functions
that are known beforehand the last one counts, of those that are only entered the first. -/
def declarations (functions : List FunctionInfo) (events : List Event) :
    List ((String × Nat) × List String) :=
  (functions.map fun i => ((i.name, i.line), i.parameters)).reverse ++ events.filterMap fun
    | .enter name line parameters => some ((name, line), parameters)
    | _ => none

theorem declarations_append (functions : List FunctionInfo) (a b : List Event) :
    declarations functions (a ++ b) = declarations functions a ++ declarations [] b := by
  rw [declarations, List.filterMap_append, ← List.append_assoc]
  rfl

@[simp] theorem declarations_define (bound : BoundName) :
    declarations [] [.define bound] = [] := rfl

@[simp] theorem declarations_read (name : String) (line : Nat) :
    declarations [] [.read name line] = [] := rfl

/-- Functions have nodes for the parameters that they were declared with. -/
def Declares (f : DataFlow) (declared : List ((String × Nat) × List String)) : Prop :=
  ∀ key, Option.Rel (List.Forall₂ (IsDefinition f.graph)) (f.declared.lookup key)
    (declared.lookup key)

variable {f : DataFlow} {declared : List ((String × Nat) × List String)}

/-- What grows besides the functions changes nothing of them. -/
theorem Declares.mono {f' : DataFlow} (h : f.Declares declared) (hf : f'.declared = f.declared)
    (hg : ∀ v ∈ f.graph.nodes, v ∈ f'.graph.nodes) : f'.Declares declared := by
  intro key
  have hkey := h key
  rw [hf]
  generalize f.declared.lookup key = ids at hkey ⊢
  generalize declared.lookup key = parameters at hkey ⊢
  cases hkey with
  | none => exact .none
  | some hids => exact .some (hids.imp fun _ _ hid => hid.mono hg)

theorem Declares.declare (h : f.Declares declared) (name : String) (line : Nat)
    (parameters : List String) :
    (f.declare name line parameters).1.Declares (((name, line), parameters) :: declared) := by
  intro key
  have hold : Option.Rel (List.Forall₂ (IsDefinition (f.declare name line parameters).1.graph))
      (f.declared.lookup key) (declared.lookup key) :=
    (h.mono rfl (declare_quiet f name line parameters).1.nodes :
      Declares { (f.declare name line parameters).1 with declared := f.declared } declared) key
  rw [DataFlow.declare, List.lookup_cons, List.lookup_cons]
  cases key == (name, line) with
  | true => exact .some (addParameters_define _ _ _ _)
  | false => exact hold

/-- A function that is about to be entered is declared, unless it was declared before. -/
theorem Declares.prepare (h : f.Declares declared) (name : String) (line : Nat)
    (parameters : List String) :
    (f.prepare name line parameters).1.Declares (declared ++ [((name, line), parameters)]) ∧
      Option.Rel (List.Forall₂ (IsDefinition (f.prepare name line parameters).1.graph))
        (some (f.prepare name line parameters).2)
        ((declared ++ [((name, line), parameters)]).lookup (name, line)) := by
  have hkey := h (name, line)
  unfold DataFlow.prepare
  cases hids : f.declared.lookup (name, line) with
  | some ids =>
    rw [hids] at hkey
    obtain ⟨first, hfirst⟩ : ∃ first, declared.lookup (name, line) = some first := by
      cases hd : declared.lookup (name, line) with
      | none =>
        rw [hd] at hkey
        cases hkey
      | some first => exact ⟨first, rfl⟩
    have hsame := lookup_concat_of_eq_some hfirst parameters
    refine ⟨fun key => ?_, ?_⟩
    · rw [hsame]
      exact h key
    · rw [hsame]
      exact hkey
  | none =>
    rw [hids] at hkey
    have hnone : declared.lookup (name, line) = none := by
      cases hd : declared.lookup (name, line) with
      | none => rfl
      | some first =>
        rw [hd] at hkey
        cases hkey
    have hsame := lookup_concat_of_eq_none hnone parameters
    refine ⟨fun key => ?_, ?_⟩
    · rw [hsame]
      exact h.declare name line parameters key
    · rw [hsame, List.lookup_cons_self]
      exact .some (addParameters_define _ _ _ _)

/-- **An event declares the function that it enters**, and nothing else is declared. -/
theorem Declares.record (h : f.Declares declared) (e : Event) :
    (f.record e).Declares (declared ++ declarations [] [e]) := by
  cases e with
  | enter name line parameters =>
    rw [DataFlow.record, enter_eq]
    exact (h.prepare name line parameters).1
  | define bound =>
    rw [declarations_define, List.append_nil]
    exact h.mono rfl (nodes_record f (.define bound))
  | read name line =>
    rw [declarations_read, List.append_nil]
    refine h.mono ?_ (nodes_record f (.read name line))
    rw [DataFlow.record, DataFlow.read]
    split <;> rfl

/-- Functions that are known beforehand are declared, the last one first. -/
theorem declares_declareAll (functions : List FunctionInfo) :
    (declareAll functions).Declares
      (functions.map fun i => ((i.name, i.line), i.parameters)).reverse := by
  rw [declareAll, ← List.foldr_reverse, ← List.map_reverse]
  induction functions.reverse with
  | nil => exact fun _ => .none
  | cons i is ih => exact ih.declare i.name i.line i.parameters

theorem declares_stateAt (functions : List FunctionInfo) (events : List Event) (j : Nat) :
    (stateAt functions events j).Declares (declarations functions (events.take j)) := by
  induction j with
  | zero =>
    rw [List.take_zero, declarations, List.filterMap_nil, List.append_nil]
    exact declares_declareAll functions
  | succ j ih =>
    cases he : events[j]? with
    | none =>
      rw [stateAt_succ_of_none he, List.take_add_one, he, Option.toList_none, List.append_nil]
      exact ih
    | some e =>
      rw [stateAt_succ he, List.take_add_one, he, declarations_append]
      exact ih.record e

/-- The parameters that a function is declared with. -/
def declaredWith (functions : List FunctionInfo) (events : List Event) (name : String)
    (line : Nat) : List String :=
  ((declarations functions events).lookup (name, line)).getD []

/-- The number of parameters that a function is declared with. -/
def arity (functions : List FunctionInfo) (events : List Event) (name : String) (line : Nat) :
    Nat :=
  (((declarations functions events).lookup (name, line)).map List.length).getD 0

theorem length_declaredWith (functions : List FunctionInfo) (events : List Event) (name : String)
    (line : Nat) :
    (declaredWith functions events name line).length = arity functions events name line := by
  rw [declaredWith, arity]
  cases (declarations functions events).lookup (name, line) with
  | none => rfl
  | some parameters => rfl

/-- **A function that is entered has nodes for the parameters that it was declared with.** -/
theorem prepare_stateAt {i : Nat} {name : String} {line : Nat} {parameters : List String}
    (he : events[i]? = some (.enter name line parameters)) :
    List.Forall₂ (IsDefinition ((stateAt functions events i).prepare name line parameters).1.graph)
      ((stateAt functions events i).prepare name line parameters).2
      (declaredWith functions events name line) := by
  have hnodes := ((declares_stateAt functions events i).prepare name line parameters).2
  have hevents : events = events.take i ++ .enter name line parameters :: events.drop (i + 1) := by
    obtain ⟨hi, hget⟩ := List.getElem?_eq_some_iff.mp he
    rw [← hget, List.getElem_cons_drop, List.take_append_drop]
  have hall : declarations functions events = declarations functions (events.take i) ++
      [((name, line), parameters)] ++ declarations [] (events.drop (i + 1)) := by
    conv_lhs => rw [hevents, declarations_append]
    rw [List.append_assoc]
    rfl
  rw [declaredWith, hall, List.lookup_append]
  cases hfirst : (declarations functions (events.take i) ++
      [((name, line), parameters)]).lookup (name, line) with
  | none =>
    rw [hfirst] at hnodes
    cases hnodes
  | some first =>
    rw [hfirst] at hnodes
    cases hnodes with
    | some hids => exact hids

/-- A function that is entered has as many parameter nodes as it was declared with. -/
theorem length_prepare_stateAt {i : Nat} {name : String} {line : Nat} {parameters : List String}
    (he : events[i]? = some (.enter name line parameters)) :
    ((stateAt functions events i).prepare name line parameters).2.length =
      arity functions events name line := by
  rw [← length_declaredWith]
  exact (prepare_stateAt he).length_eq

end CodeDiagram.DataFlow
