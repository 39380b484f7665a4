/-
# Call graphs

A call graph has one node per name of a declared function, between an entry and an exit, and an edge
from each function to those it calls.  Calls outside of any function come from one global caller,
which is there only if it calls something.

* `FrontEnd.callSite?` is the call at a node, if there is one, with the scope that it stands in.
* `CallGraph.link` turns it into an edge, if both of its ends are known.
* `CallGraph.follow` does so for all nodes of a tree, and hands the scope of a node on to those
  inside it.
-/
import CodeDiagram.FrontEnd.Basic

namespace CodeDiagram

open Syntax

/-! ## 1. Calls and their scopes -/

/-- The innermost function around a place. -/
inductive Scope where
  /-- There is none. -/
  | outermost
  /-- A declaration, with its name if it has one. -/
  | inside (name : Option String)
deriving DecidableEq, Repr

/-- A call: where it stands and what it calls, if that can be told. -/
structure CallSite where
  scope : Scope
  callee : Option String
deriving DecidableEq, Repr

/-- The scope of a node that stands in `scope`: a function is a scope of its own. -/
def FrontEnd.scopeAt (fe : FrontEnd) (d : Document) (scope : Scope) (n : Node) : Scope :=
  if (fe.classify n.kind).isFunction then .inside (d.declaredName n).toOption else scope

/-- The call at a node that stands in `scope`, if it is one. -/
def FrontEnd.callSite? (fe : FrontEnd) (d : Document) (scope : Scope) (n : Node) :
    Option CallSite :=
  if fe.classify n.kind = .call then some ⟨scope, fe.calleeName d n⟩ else none

/-! ## 2. The graph -/

/-- The graph in progress: the nodes of function names, and the global caller once it is needed. -/
structure CallGraph where
  graph : Graph := .empty
  functions : List (String × NodeId) := []
  global : Option NodeId := none

namespace CallGraph

/-- The label of the global caller. -/
def globalLabel : String := "Global"

/-- What is told when no function is declared. -/
def noFunctions : String := "No functions found"

/-- Adds a function between its entry and its exit; it gets the first of the new identities. -/
def framed (g : Graph) (f : FunctionInfo) : Graph :=
  let (g, id) := g.addNode "function" .function f.name f.line
  let (g, entry) := g.addNode "entry" .entry (f.name ++ "_entry") f.line
  let (g, exit) := g.addNode "exit" .exit (f.name ++ "_exit") f.line
  (g.addEdge ⟨entry, id, some .flow⟩).addEdge ⟨id, exit, some .flow⟩

/-- Adds a function, unless its name is known already. -/
def declare (c : CallGraph) (f : FunctionInfo) : CallGraph :=
  if (c.functions.lookup f.name).isSome then c
  else
    { c with
      graph := framed c.graph f
      functions := c.functions ++ [(f.name, c.graph.nextId)] }

/-- Adds a call, unless a function calls itself. -/
def connect (c : CallGraph) (caller callee : NodeId) : CallGraph :=
  if caller = callee then c
  else { c with graph := c.graph.addEdge ⟨caller, callee, some .calls⟩ }

/-- The graph with the global caller, which is added when there is none yet. -/
def withGlobal (c : CallGraph) : CallGraph × NodeId :=
  match c.global with
  | some id => (c, id)
  | none =>
    let (graph, id) := c.graph.addNode "program" .globalCaller globalLabel
    ({ c with graph, global := some id }, id)

/-- Adds the edge of a call.  A call of an unknown name, or from a function of an unknown name, has
none. -/
def link (c : CallGraph) (site : CallSite) : CallGraph :=
  match site.callee.bind (c.functions.lookup ·) with
  | none => c
  | some callee =>
    match site.scope with
    | .outermost =>
      let (c, caller) := c.withGlobal
      c.connect caller callee
    | .inside name =>
      match name.bind (c.functions.lookup ·) with
      | some caller => c.connect caller callee
      | none => c

/-- Adds the edge of the call at a node that stands in `scope`, if it is one. -/
def linkAt (fe : FrontEnd) (d : Document) (c : CallGraph) (scope : Scope) (n : Node) : CallGraph :=
  match fe.callSite? d scope n with
  | some site => c.link site
  | none => c

/-- The nodes inside a node are fewer than the nodes from it on. -/
theorem sizes_inside_lt (scope inner : Scope) (n : Node) (rest : List (Scope × Node)) :
    Node.sizes ((n.namedChildren.map (inner, ·) ++ rest).map (·.2)) <
      Node.sizes (((scope, n) :: rest).map (·.2)) := by
  have hinside : (n.namedChildren.map ((inner, ·) : Node → Scope × Node)).map (·.2) =
      n.namedChildren := by simp [Function.comp_def]
  rw [List.map_append, hinside, Node.sizes_append]
  exact Nat.add_lt_add_right n.sizes_namedChildren_lt _

/-- Links the calls at the nodes of a list and at those inside them, which come first.  Each node
stands in a scope, and those inside it in the scope that it makes. -/
def follow (fe : FrontEnd) (d : Document) (c : CallGraph) : List (Scope × Node) → CallGraph
  | [] => c
  | (scope, n) :: rest =>
    let inner := fe.scopeAt d scope n
    (c.linkAt fe d inner n).follow fe d (n.namedChildren.map (inner, ·) ++ rest)
termination_by places => Node.sizes (places.map (·.2))
decreasing_by exact sizes_inside_lt ..

/-- The functions of a text between their entries and exits. -/
def skeleton (functions : List FunctionInfo) : CallGraph := functions.foldl declare {}

/-- Functions between their entries and exits, with the calls of a document linked. -/
def wired (fe : FrontEnd) (functions : List FunctionInfo) (d : Option Document) : CallGraph :=
  match d with
  | some d => (skeleton functions).follow fe d [(.outermost, d.root)]
  | none => skeleton functions

/-- The call graph of declared functions and, if there is a document, of the calls in it. -/
def synthesize (fe : FrontEnd) (functions : List FunctionInfo) (d : Option Document) : Graph :=
  if functions.isEmpty then .placeholder "message" .message noFunctions
  else (wired fe functions d).graph.retainConnected

end CallGraph

end CodeDiagram
