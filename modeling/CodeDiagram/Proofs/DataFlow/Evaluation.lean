/-
# The walk is an evaluation

The data-flow walk works off an agenda: what a task leads to is put in front of the other tasks, and
targets wait there until their values have been evaluated.  This file proves that the walk is a
recursive evaluation all the same (`Machine.run`): it comes to an end, what it finds is what
evaluating the root finds (`FrontEnd.evaluate_eq`), and the nodes that it visits are those that
evaluating the root visits (`FrontEnd.trail_eq`).

* `FrontEnd.trace` is the evaluation of a node; every event comes with the node that it is found at.
* `Machine.turn` is one turn of the walk, with a record of what was visited and found so far.
* `Machine.turns` is the step: after some turns a task is off the agenda, and the record has grown
  by what the task stands for.
-/
import CodeDiagram.Diagram.DataFlow
import CodeDiagram.Proofs.Syntax.Paths
import Mathlib.Logic.Function.Iterate

namespace CodeDiagram

open Syntax

variable {fe : FrontEnd} {d : Document}

/-! ## 1. Evaluation -/

/-- What evaluating a node finds, each event with the node that it is found at: first the values,
then the names that are bound, then what the targets leave to be read, then the rest. -/
def FrontEnd.trace (fe : FrontEnd) (d : Document) (n : Node) : List (Node × Event) :=
  match h : fe.flowStep d n with
  | .bind values targets binding next =>
    (values.attach.flatMap fun ⟨m, _⟩ => fe.trace d m) ++
      (fe.namesOf d targets binding).map (n, .define ·) ++
      ((fe.readsOf d targets binding).attach.flatMap fun ⟨m, _⟩ => fe.trace d m) ++
      next.attach.flatMap fun ⟨m, _⟩ => fe.trace d m
  | .function name parameters body =>
    (n, .enter name (d.line n) parameters) :: body.attach.flatMap fun ⟨m, _⟩ => fe.trace d m
  | .reference name => [(n, .read name (d.line n))]
  | .walk children => children.attach.flatMap fun ⟨m, _⟩ => fe.trace d m
  | .skip => []
termination_by n.size
decreasing_by
  all_goals
    refine fe.size_lt_of_mem_ahead d ?_
    rw [FrontEnd.ahead, h]
    simp [*]

theorem flatMap_attach_val {α β : Type} (l : List α) (f : α → List β) :
    (l.attach.flatMap fun ⟨a, _⟩ => f a) = l.flatMap f := by
  rw [List.flatMap, List.flatMap]
  exact congrArg List.flatten List.attach_map_val

theorem FrontEnd.trace_eq (fe : FrontEnd) (d : Document) (n : Node) : fe.trace d n =
    match fe.flowStep d n with
    | .bind values targets binding next =>
      values.flatMap (fe.trace d) ++ (fe.namesOf d targets binding).map (n, .define ·) ++
        (fe.readsOf d targets binding).flatMap (fe.trace d) ++ next.flatMap (fe.trace d)
    | .function name parameters body =>
      (n, .enter name (d.line n) parameters) :: body.flatMap (fe.trace d)
    | .reference name => [(n, .read name (d.line n))]
    | .walk children => children.flatMap (fe.trace d)
    | .skip => [] := by
  rw [FrontEnd.trace]
  split <;> rename_i h <;> rw [h] <;> simp only [flatMap_attach_val]

/-- What evaluating a node finds, in order. -/
def FrontEnd.evaluate (fe : FrontEnd) (d : Document) (n : Node) : List Event :=
  (fe.trace d n).map (·.2)

/-- **Evaluation is recursive**: values, names that are bound, what the targets leave to be read,
and the rest. -/
theorem FrontEnd.evaluate_eq (fe : FrontEnd) (d : Document) (n : Node) : fe.evaluate d n =
    match fe.flowStep d n with
    | .bind values targets binding next =>
      values.flatMap (fe.evaluate d) ++ (fe.namesOf d targets binding).map .define ++
        (fe.readsOf d targets binding).flatMap (fe.evaluate d) ++ next.flatMap (fe.evaluate d)
    | .function name parameters body =>
      .enter name (d.line n) parameters :: body.flatMap (fe.evaluate d)
    | .reference name => [.read name (d.line n)]
    | .walk children => children.flatMap (fe.evaluate d)
    | .skip => [] := by
  have hall : ∀ ns : List Node,
      (ns.flatMap (fe.trace d)).map (·.2) = ns.flatMap (fe.evaluate d) := by
    intro ns
    rw [List.map_flatMap]
    rfl
  rw [FrontEnd.evaluate, FrontEnd.trace_eq]
  cases fe.flowStep d n with
  | bind values targets binding next =>
    simp only [List.map_append, hall, List.map_map]
    rfl
  | function name parameters body =>
    simp only [List.map_cons, hall]
  | reference name => rfl
  | walk children => exact hall children
  | skip => rfl

/-- The nodes that evaluating a node visits, in order, as often as they are visited. -/
def FrontEnd.trail (fe : FrontEnd) (d : Document) (n : Node) : List Node :=
  n :: (fe.ahead d n).attach.flatMap fun ⟨m, h⟩ =>
    have := fe.size_lt_of_mem_ahead d h
    fe.trail d m
termination_by n.size

theorem FrontEnd.trail_eq (fe : FrontEnd) (d : Document) (n : Node) :
    fe.trail d n = n :: (fe.ahead d n).flatMap (fe.trail d) := by
  rw [FrontEnd.trail]
  exact congrArg (n :: ·) (flatMap_attach_val _ _)

/-- A node is among those that are visited from it on. -/
theorem FrontEnd.mem_trail_self (fe : FrontEnd) (d : Document) (n : Node) : n ∈ fe.trail d n := by
  rw [FrontEnd.trail_eq]
  exact List.mem_cons_self

/-- What is visited from where a step leads to is visited from the node of the step. -/
theorem FrontEnd.mem_trail_of_mem_ahead {n c m : Node} (hc : c ∈ fe.ahead d n)
    (hm : m ∈ fe.trail d c) : m ∈ fe.trail d n := by
  rw [FrontEnd.trail_eq]
  exact List.mem_cons_of_mem _ (List.mem_flatMap.mpr ⟨c, hc, hm⟩)

/-! ## 2. What a task stands for -/

/-- The node that the turn of a task visits. -/
def Task.node? : Task → Option Node
  | .visit n => some n
  | .bind _ _ => none

/-- The nodes that are visited until a task is done. -/
def Task.trail (fe : FrontEnd) (d : Document) : Task → List Node
  | .visit n => fe.trail d n
  | .bind targets binding => (fe.readsOf d targets binding).flatMap (fe.trail d)

/-- What is found until a task is done. -/
def Task.found (fe : FrontEnd) (d : Document) : Task → List Event
  | .visit n => fe.evaluate d n
  | .bind targets binding =>
    (fe.namesOf d targets binding).map .define ++
      (fe.readsOf d targets binding).flatMap (fe.evaluate d)

theorem flatMap_visit {β : Type} (f : Task → List β) (ns : List Node) :
    (ns.map Task.visit).flatMap f = ns.flatMap fun n => f (.visit n) := by
  rw [List.flatMap_map]

/-- A turn visits the node of its task, and what it puts on the agenda visits the others. -/
theorem Task.trail_eq (fe : FrontEnd) (d : Document) (task : Task) :
    task.trail fe d = task.node?.toList ++ (agendaTurn fe d task).2.flatMap (Task.trail fe d) := by
  cases task with
  | bind targets binding =>
    rw [agendaTurn, flatMap_visit]
    rfl
  | visit n =>
    rw [Task.trail, FrontEnd.trail_eq, agendaTurn, FrontEnd.tasks, FrontEnd.ahead]
    cases fe.flowStep d n with
    | bind values targets binding next =>
      simp only [List.flatMap_append, List.flatMap_cons, flatMap_visit, Task.trail, Task.node?,
        Option.toList_some, List.singleton_append, List.append_assoc]
    | function name parameters body => simp [flatMap_visit, Task.trail, Task.node?]
    | reference name => rfl
    | walk children => simp [flatMap_visit, Task.trail, Task.node?]
    | skip => rfl

/-- A turn finds the first events of its task, and what it puts on the agenda finds the others. -/
theorem Task.found_eq (fe : FrontEnd) (d : Document) (task : Task) :
    task.found fe d = (agendaTurn fe d task).1 ++
      (agendaTurn fe d task).2.flatMap (Task.found fe d) := by
  cases task with
  | bind targets binding =>
    rw [agendaTurn, flatMap_visit]
    rfl
  | visit n =>
    rw [Task.found, FrontEnd.evaluate_eq, agendaTurn, FrontEnd.tasks, FrontEnd.events]
    cases fe.flowStep d n with
    | bind values targets binding next =>
      simp only [List.flatMap_append, List.flatMap_cons, flatMap_visit, Task.found,
        List.nil_append, List.append_assoc]
    | function name parameters body => simp [flatMap_visit, Task.found]
    | reference name => rfl
    | walk children => simp [flatMap_visit, Task.found]
    | skip => rfl

/-! ## 3. The run -/

/-- The walk in progress: the nodes visited, the events found and the tasks left. -/
structure Machine where
  visited : List Node := []
  found : List Event := []
  agenda : List Task

namespace Machine

/-- One turn of the walk; with nothing left to do it changes nothing. -/
def turn (fe : FrontEnd) (d : Document) (m : Machine) : Machine :=
  match m.agenda with
  | [] => m
  | task :: rest =>
    { visited := m.visited ++ task.node?.toList
      found := m.found ++ (agendaTurn fe d task).1
      agenda := (agendaTurn fe d task).2 ++ rest }

/-- **The walk ends**, and by then it has done all that its tasks stand for. -/
theorem turns (fe : FrontEnd) (d : Document) (visited : List Node) (found : List Event)
    (agenda : List Task) :
    ∃ k, (turn fe d)^[k] ⟨visited, found, agenda⟩ =
      ⟨visited ++ agenda.flatMap (Task.trail fe d),
        found ++ agenda.flatMap (Task.found fe d), []⟩ := by
  induction agenda using walk.induct fe d generalizing visited found with
  | case1 => exact ⟨0, by simp⟩
  | case2 task rest _ ih =>
    obtain ⟨k, hk⟩ := ih (visited ++ task.node?.toList) (found ++ (agendaTurn fe d task).1)
    refine ⟨k + 1, ?_⟩
    rw [Function.iterate_succ_apply, turn, hk, List.flatMap_cons, List.flatMap_cons,
      task.trail_eq fe d, task.found_eq fe d]
    simp only [List.flatMap_append, List.append_assoc]

end Machine

/-- The walk finds what its tasks stand for. -/
theorem walk_eq (agenda : List Task) : walk fe d agenda = agenda.flatMap (Task.found fe d) := by
  induction agenda using walk.induct fe d with
  | case1 => rw [walk, List.flatMap_nil]
  | case2 task rest _ ih =>
    rw [walk, ih, List.flatMap_cons, task.found_eq fe d, List.flatMap_append, List.append_assoc]

/-- **The data flow of a document is the evaluation of its root.** -/
theorem flow_eq_evaluate (fe : FrontEnd) (d : Document) : d.flow fe = fe.evaluate d d.root := by
  rw [Document.flow, walk_eq, List.flatMap_cons, List.flatMap_nil, List.append_nil]
  rfl

/-- **The run of the walk**: from the root on the agenda until nothing is left. -/
theorem Machine.run (fe : FrontEnd) (d : Document) :
    ∃ k, (turn fe d)^[k] { agenda := [.visit d.root] } =
      ⟨fe.trail d d.root, fe.evaluate d d.root, []⟩ := by
  obtain ⟨k, hk⟩ := turns fe d [] [] [.visit d.root]
  refine ⟨k, hk.trans ?_⟩
  simp [Task.trail, Task.found]

/-- A walk with nothing left to do stays as it is. -/
theorem Machine.iterate_of_agenda_eq_nil {m : Machine} (h : m.agenda = []) (k : Nat) :
    (turn fe d)^[k] m = m := by
  refine Function.iterate_fixed ?_ k
  rw [turn, h]

/-- However many turns it took, a walk that has ended shows the evaluation of the root. -/
theorem Machine.eq_of_agenda_isEmpty (fe : FrontEnd) (d : Document) (k : Nat)
    (h : ((turn fe d)^[k] { agenda := [.visit d.root] }).agenda.isEmpty = true) :
    (turn fe d)^[k] { agenda := [.visit d.root] } =
      ⟨fe.trail d d.root, fe.evaluate d d.root, []⟩ := by
  obtain ⟨l, hl⟩ := Machine.run fe d
  rcases Nat.le_total k l with hkl | hlk
  · obtain ⟨n, rfl⟩ := Nat.exists_eq_add_of_le' hkl
    rw [← hl, Function.iterate_add_apply,
      Machine.iterate_of_agenda_eq_nil (List.isEmpty_iff.mp h)]
  · obtain ⟨n, rfl⟩ := Nat.exists_eq_add_of_le' hlk
    rw [Function.iterate_add_apply, hl, Machine.iterate_of_agenda_eq_nil rfl]

end CodeDiagram
