/-
# Data flow

Names are followed from where they get a value to where they are read.  A document is walked in the
order of evaluation, and each name is resolved to the latest definition of that name, whatever
function that stands in.

* `Event` is what the walk finds: a function is entered, a name is defined or read.
* `agendaTurn` does the next task of the walk.  Each task has a cost, the number of turns that it
  and all that follows from it take, so the walk ends after as many turns as its agenda costs.
* `DataFlow.record` turns events into a graph.
-/
import CodeDiagram.FrontEnd.Basic

namespace CodeDiagram

open Syntax

/-! ## 1. Tasks -/

/-- Something left to do on a walk. -/
inductive Task where
  /-- Evaluate a node. -/
  | visit (n : Node)
  /-- Bind targets whose values have been evaluated. -/
  | bind (targets : List Node) (binding : Binding)

/-- Something the walk finds. -/
inductive Event where
  | enter (name : String) (line : Nat) (parameters : List String)
  | define (bound : BoundName)
  | read (name : String) (line : Nat)
deriving DecidableEq, Repr

/-- What is read once targets are bound. -/
def FrontEnd.readsOf (fe : FrontEnd) (d : Document) (targets : List Node) (binding : Binding) :
    List Node :=
  targets.flatMap fun t => (fe.bindTargets d t binding).reads

/-- The names that targets bind. -/
def FrontEnd.namesOf (fe : FrontEnd) (d : Document) (targets : List Node) (binding : Binding) :
    List BoundName :=
  targets.flatMap fun t => (fe.bindTargets d t binding).names

/-- What targets leave to be read is smaller than the node that has the targets. -/
theorem FrontEnd.size_lt_of_mem_readsOf (fe : FrontEnd) (d : Document) {n : Node}
    {targets : List Node} {binding : Binding} {m : Node}
    (ht : ∀ t ∈ targets, t.size < n.size) (hm : m ∈ fe.readsOf d targets binding) :
    m.size < n.size := by
  obtain ⟨t, h, hr⟩ := List.mem_flatMap.mp hm
  have := fe.size_le_of_mem_reads d t binding m hr
  have := ht t h
  omega

/-! ## 2. What a task costs -/

/-- The nodes that a step leads to, each in its turn. -/
def FrontEnd.ahead (fe : FrontEnd) (d : Document) (n : Node) : List Node :=
  match fe.flowStep d n with
  | .bind values targets binding next => values ++ fe.readsOf d targets binding ++ next
  | .function _ _ body => body
  | .reference _ => []
  | .walk children => children
  | .skip => []

/-- A step leads to smaller nodes only. -/
theorem FrontEnd.size_lt_of_mem_ahead (fe : FrontEnd) (d : Document) {n m : Node}
    (h : m ∈ fe.ahead d n) : m.size < n.size := by
  have law := fe.size_lt_of_mem_flowStep d n
  unfold FrontEnd.ahead at h
  split at h <;> rename_i heq <;> rw [heq] at law <;> simp only [FlowStep.mentions] at law
  · rcases List.mem_append.mp h with h | h
    · rcases List.mem_append.mp h with h | h
      · exact law m (by simp [h])
      · exact fe.size_lt_of_mem_readsOf d (fun t ht => law t (by simp [ht])) h
    · exact law m (by simp [h])
  · exact law m h
  · cases h
  · exact law m h
  · cases h

/-- The sum of some numbers. -/
def total : List Nat → Nat
  | [] => 0
  | n :: ns => n + total ns

theorem total_append (a b : List Nat) : total (a ++ b) = total a + total b := by
  induction a with
  | nil => simp [total]
  | cons n ns ih =>
    simp only [List.cons_append, total, ih]
    omega

/-- The turns that evaluating a node takes: two for the node, which may bind, and those of the nodes
that it leads to. -/
def FrontEnd.cost (fe : FrontEnd) (d : Document) (n : Node) : Nat :=
  2 + total ((fe.ahead d n).attach.map fun ⟨m, h⟩ =>
    have := fe.size_lt_of_mem_ahead d h
    fe.cost d m)
termination_by n.size

/-- The turns that evaluating nodes takes. -/
def FrontEnd.costs (fe : FrontEnd) (d : Document) (ns : List Node) : Nat :=
  total (ns.map (fe.cost d))

/-- The turns that a task takes. -/
def Task.cost (fe : FrontEnd) (d : Document) : Task → Nat
  | .visit n => fe.cost d n
  | .bind targets binding => 1 + fe.costs d (fe.readsOf d targets binding)

/-- The turns that a list of tasks takes. -/
def agendaCost (fe : FrontEnd) (d : Document) (agenda : List Task) : Nat :=
  total (agenda.map (Task.cost fe d))

theorem FrontEnd.cost_eq (fe : FrontEnd) (d : Document) (n : Node) :
    fe.cost d n = 2 + fe.costs d (fe.ahead d n) := by
  rw [FrontEnd.cost, FrontEnd.costs]
  exact congrArg (fun l => 2 + total l) List.attach_map_val

theorem FrontEnd.costs_append (fe : FrontEnd) (d : Document) (a b : List Node) :
    fe.costs d (a ++ b) = fe.costs d a + fe.costs d b := by
  simp only [FrontEnd.costs, List.map_append, total_append]

theorem agendaCost_append (fe : FrontEnd) (d : Document) (a b : List Task) :
    agendaCost fe d (a ++ b) = agendaCost fe d a + agendaCost fe d b := by
  simp only [agendaCost, List.map_append, total_append]

theorem agendaCost_visits (fe : FrontEnd) (d : Document) (ns : List Node) :
    agendaCost fe d (ns.map .visit) = fe.costs d ns := by
  simp only [agendaCost, FrontEnd.costs, List.map_map]
  rfl

/-! ## 3. The walk -/

/-- The tasks that evaluating a node leads to. -/
def FrontEnd.tasks (fe : FrontEnd) (d : Document) (n : Node) : List Task :=
  match fe.flowStep d n with
  | .bind values targets binding next =>
    values.map .visit ++ .bind targets binding :: next.map .visit
  | .function _ _ body => body.map .visit
  | .reference _ => []
  | .walk children => children.map .visit
  | .skip => []

/-- What evaluating a node finds at once. -/
def FrontEnd.events (fe : FrontEnd) (d : Document) (n : Node) : List Event :=
  match fe.flowStep d n with
  | .function name parameters _ => [.enter name (d.line n) parameters]
  | .reference name => [.read name (d.line n)]
  | _ => []

/-- The next turn: what it finds, and the tasks it puts in front of the others. -/
def agendaTurn (fe : FrontEnd) (d : Document) : Task → List Event × List Task
  | .visit n => (fe.events d n, fe.tasks d n)
  | .bind targets binding =>
    ((fe.namesOf d targets binding).map .define, (fe.readsOf d targets binding).map .visit)

/-- A turn costs something. -/
theorem agendaCost_turn_lt (fe : FrontEnd) (d : Document) (task : Task) :
    agendaCost fe d (agendaTurn fe d task).2 < task.cost fe d := by
  cases task with
  | bind targets binding =>
    simp only [agendaTurn, agendaCost_visits, Task.cost]
    omega
  | visit n =>
    simp only [agendaTurn, Task.cost, FrontEnd.cost_eq, FrontEnd.tasks, FrontEnd.ahead]
    split
    · rename_i values targets binding next _
      have := agendaCost_append fe d [.bind targets binding] (next.map .visit)
      simp only [List.singleton_append] at this
      simp only [agendaCost_append, agendaCost_visits, FrontEnd.costs_append, this]
      simp only [agendaCost, List.map_cons, List.map_nil, total, Task.cost]
      omega
    · simp only [agendaCost_visits]
      omega
    · simp [agendaCost, FrontEnd.costs, total]
    · simp only [agendaCost_visits]
      omega
    · simp [agendaCost, FrontEnd.costs, total]

/-- Does the tasks of an agenda one after the other; what a task leads to comes first. -/
def walk (fe : FrontEnd) (d : Document) : List Task → List Event
  | [] => []
  | task :: rest =>
    have : agendaCost fe d ((agendaTurn fe d task).2 ++ rest) < agendaCost fe d (task :: rest) := by
      have := agendaCost_turn_lt fe d task
      rw [agendaCost_append]
      simp only [agendaCost, List.map_cons, total] at *
      omega
    (agendaTurn fe d task).1 ++ walk fe d ((agendaTurn fe d task).2 ++ rest)
termination_by agenda => agendaCost fe d agenda

/-- All that is found in a document, in the order of evaluation. -/
def Syntax.Document.flow (d : Document) (fe : FrontEnd) : List Event := walk fe d [.visit d.root]

/-! ## 4. The graph -/

/-- The graph in progress: the latest definition of each name, and the parameter nodes of each
function, told apart by name and line. -/
structure DataFlow where
  graph : Graph := .empty
  definitions : List (String × NodeId) := []
  declared : List ((String × Nat) × List NodeId) := []

namespace DataFlow

/-- What is told when there is nothing to follow. -/
def noDependencies : String := "No data dependencies found"

/-- Adds a node per parameter, each with an edge to the function that uses it. -/
def addParameters (function : NodeId) (line : Nat) (g : Graph) : List String → Graph × List NodeId
  | [] => (g, [])
  | p :: ps =>
    let (g, id) := g.addNode "parameter" .parameter p line
    let (g, ids) := addParameters function line (g.addEdge ⟨id, function, some .uses⟩) ps
    (g, id :: ids)

/-- Adds a function and its parameters, and remembers the parameters. -/
def declare (f : DataFlow) (name : String) (line : Nat) (parameters : List String) :
    DataFlow × List NodeId :=
  let (g, function) := f.graph.addNode "function" .function name line
  let (g, ids) := addParameters function line g parameters
  ({ f with graph := g, declared := ((name, line), ids) :: f.declared }, ids)

/-- Makes a node the definition of a name. -/
def assign (f : DataFlow) (name : String) (id : NodeId) : DataFlow :=
  { f with definitions := (name, id) :: f.definitions }

/-- The parameter nodes of a function.  One that was not declared before is declared now. -/
def prepare (f : DataFlow) (name : String) (line : Nat) (parameters : List String) :
    DataFlow × List NodeId :=
  match f.declared.lookup (name, line) with
  | some ids => (f, ids)
  | none => f.declare name line parameters

/-- Enters a function: its parameters become the definitions of their names. -/
def enter (f : DataFlow) (name : String) (line : Nat) (parameters : List String) : DataFlow :=
  let (f, ids) := f.prepare name line parameters
  (parameters.zip ids).foldl (fun f (p, id) => f.assign p id) f

/-- The kind and type of the node for a bound name. -/
def bindingNode : Binding → String × NodeKind
  | .field => ("field", .field)
  | .parameter => ("parameter", .parameter)
  | .localName | .loopTarget => ("variable", .variableDecl)

/-- Adds a definition. -/
def define (f : DataFlow) (bound : BoundName) : DataFlow :=
  let (type, kind) := bindingNode bound.binding
  let (g, id) := f.graph.addNode type kind bound.name bound.line
  ({ f with graph := g }).assign bound.name id

/-- Adds a use of a name that is defined; any other read leaves no trace. -/
def read (f : DataFlow) (name : String) (line : Nat) : DataFlow :=
  match f.definitions.lookup name with
  | none => f
  | some definition =>
    let (g, id) := f.graph.addNode "use" .useSite name line
    { f with graph := g.addEdge ⟨definition, id, some .defines⟩ }

/-- Adds what the walk found. -/
def record (f : DataFlow) : Event → DataFlow
  | .enter name line parameters => f.enter name line parameters
  | .define bound => f.define bound
  | .read name line => f.read name line

/-- The functions that are known beforehand. -/
def declareAll (functions : List FunctionInfo) : DataFlow :=
  functions.foldl (fun f i => (f.declare i.name i.line i.parameters).1) {}

/-- The data flow of a document, with the functions that are known beforehand. -/
def synthesize (fe : FrontEnd) (functions : List FunctionInfo) (d : Document) : Graph :=
  let f := (d.flow fe).foldl record (declareAll functions)
  if f.graph.isEmpty then .placeholder "message" .message noDependencies else f.graph

end DataFlow

end CodeDiagram
