/-
# Indexed graphs

A graph with what makes it quick to ask: an index that says where the node of an identity stands,
and the set of the edges.  Identities are words of 32 bits; after the last one they begin again.

`Graph.Operation` lists what can be done to a graph, and there is an answer to each operation.  An
indexed graph and a plain one (`IndexedGraph.plain`) answer alike as long as there are identities
left: see `Proofs/Graph/Indexing.lean`.
-/
import CodeDiagram.Graph.Basic
import Mathlib.Algebra.Group.Nat.Defs
import Mathlib.Data.List.Nodup

namespace CodeDiagram

deriving instance Hashable for Relation
deriving instance Hashable for Graph.Edge

/-! ## 1. Operations and answers -/

namespace Graph

/-- What can be done to a graph. -/
inductive Operation where
  | addNode (type : String) (kind : NodeKind) (label : String) (line : Option Nat)
  | addEdge (e : Edge)
  | retainConnected
deriving DecidableEq, Repr

/-- What is told after an operation. -/
inductive Answer where
  /-- The identity of the new node. -/
  | node (id : NodeId)
  /-- Whether the edge was added. -/
  | edge (isAdded : Bool)
  /-- How many nodes were removed. -/
  | removed (count : Nat)
deriving DecidableEq, Repr

/-- The identity that an answer gives to a node. -/
def Answer.given? : Answer → Option NodeId
  | node id => some id
  | edge _ => none
  | removed _ => none

/-- Whether an operation adds a node. -/
def Operation.isAddition : Operation → Bool
  | addNode _ _ _ _ => true
  | addEdge _ => false
  | retainConnected => false

/-- Makes operations one after the other and collects the answers. -/
def Operation.run {α : Type} (step : α → Operation → α × Answer) (a : α) :
    List Operation → α × List Answer
  | [] => (a, [])
  | op :: ops =>
    let (a, answer) := step a op
    let (a, answers) := run step a ops
    (a, answer :: answers)

/-- Makes one operation. -/
def apply (g : Graph) : Operation → Graph × Answer
  | .addNode type kind label line =>
    let (g, id) := g.addNode type kind label line
    (g, .node id)
  | .addEdge e => (g.addEdge e, .edge (g.admits e))
  | .retainConnected => (g.retainConnected, .removed (g.nodeCount - g.retainConnected.nodeCount))

end Graph

open CodeDiagram.Graph

/-! ## 2. The graph and its index -/

/-- Nodes and edges in the order they were added, with an index of the nodes and the set of the
edges. -/
structure IndexedGraph where
  nodes : List Vertex := []
  edges : List Edge := []
  /-- Where the node of an identity stands in the list of nodes. -/
  index : Std.HashMap NodeId Nat := ∅
  /-- The edges that were added. -/
  seen : Std.HashSet Edge := ∅
  /-- The identity that the next node gets. -/
  nextId : NodeId := 0

namespace IndexedGraph

/-- How many identities there are. -/
def idCount : Nat := 2 ^ 32

/-- The graph without nodes. -/
def empty : IndexedGraph := {}

/-- The graph without its index. -/
def plain (t : IndexedGraph) : Graph where
  nodes := t.nodes
  edges := t.edges
  nextId := t.nextId

/-- Where a node stands in the list of nodes. -/
def indexOf? (t : IndexedGraph) (id : NodeId) : Option Nat := t.index[id]?

/-- The node of an identity. -/
def node? (t : IndexedGraph) (id : NodeId) : Option Vertex := t.index[id]?.bind (t.nodes[·]?)

/-- Whether an edge is there, its relation included. -/
def hasEdge (t : IndexedGraph) (e : Edge) : Bool := t.seen.contains e

/-- Adds a node; the answer names it. -/
def addNode (t : IndexedGraph) (type : String) (kind : NodeKind) (label : String)
    (line : Option Nat := none) : IndexedGraph × NodeId :=
  ({ t with
     nodes := t.nodes ++ [⟨t.nextId, type, kind, label, line⟩]
     index := t.index.insert t.nextId t.nodes.length
     nextId := (t.nextId + 1) % idCount }, t.nextId)

/-- Adds an edge that is new and joins nodes that are there; the answer says whether it did. -/
def addEdge (t : IndexedGraph) (e : Edge) : IndexedGraph × Bool :=
  if !t.index.contains e.source || !t.index.contains e.target then (t, false)
  else if t.seen.contains e then (t, false)
  else ({ t with edges := t.edges ++ [e], seen := t.seen.insert e }, true)

/-- Removes the nodes that no edge touches, and makes the index anew; the answer says how many
there were.  The edges and the next identity stay. -/
def retainConnected (t : IndexedGraph) : IndexedGraph × Nat :=
  let connected := Std.HashSet.ofList (t.edges.flatMap fun e => [e.source, e.target])
  let nodes := t.nodes.filter fun v => connected.contains v.id
  ({ t with nodes, index := .ofList (nodes.mapIdx fun i v => (v.id, i)) },
   t.nodes.length - nodes.length)

/-- A graph of one node that only tells something. -/
def placeholder (type : String) (kind : NodeKind) (label : String) : IndexedGraph :=
  (empty.addNode type kind label).1

/-- Makes one operation. -/
def apply (t : IndexedGraph) : Operation → IndexedGraph × Answer
  | .addNode type kind label line =>
    let (t, id) := t.addNode type kind label line
    (t, .node id)
  | .addEdge e =>
    let (t, isAdded) := t.addEdge e
    (t, .edge isAdded)
  | .retainConnected =>
    let (t, count) := t.retainConnected
    (t, .removed count)

end IndexedGraph

end CodeDiagram
