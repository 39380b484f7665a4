/-
# Graphs

A directed graph of labelled nodes.  Nodes get ascending identities that are never given twice;
an edge is a source, a target and perhaps a relation, is kept at most once, and joins nodes that
are there.
-/
import CodeDiagram.Graph.Kind

namespace CodeDiagram

/-! ## 1. Nodes and edges -/

/-- The identity of a node within one graph. -/
abbrev NodeId := Nat

/-- What an edge says about its ends. -/
inductive Relation where
  /-- The source holds the target. -/
  | contains
  /-- The source calls the target. -/
  | calls
  /-- The source is a subtype of the target. -/
  | extends
  /-- The source fulfils the contract of the target. -/
  | implements
  /-- The source is the definition that the target reads. -/
  | defines
  /-- The source is a parameter of the target. -/
  | uses
  /-- Control passes from the source to the target. -/
  | flow
deriving DecidableEq, Repr

namespace Relation

/-- Every relation, in the order they are listed. -/
def all : List Relation := [contains, calls, .extends, implements, defines, uses, flow]

/-- The name in answers. -/
def name : Relation → String
  | contains => "contains"
  | calls => "calls"
  | .extends => "extends"
  | implements => "implements"
  | defines => "defines"
  | uses => "uses"
  | flow => "flow"

/-- The relation of a name. -/
def ofName? (s : String) : Option Relation := all.find? (·.name == s)

end Relation

namespace Graph

/-- A node of a diagram. -/
structure Vertex where
  id : NodeId
  /-- The grammar kind, or a tag for nodes that no source text stands behind. -/
  type : String
  kind : NodeKind
  label : String
  line : Option Nat
deriving DecidableEq, Repr, Inhabited

/-- A directed edge. -/
structure Edge where
  source : NodeId
  target : NodeId
  relation : Option Relation := none
deriving DecidableEq, Repr

end Graph

/-- Nodes and edges in the order they were added. -/
@[ext] structure Graph where
  nodes : List Graph.Vertex := []
  edges : List Graph.Edge := []
  /-- The identity that the next node gets. -/
  nextId : NodeId := 0
deriving DecidableEq, Repr, Inhabited

namespace Graph

/-! ## 2. Looking -/

/-- The graph without nodes. -/
def empty : Graph := {}

/-- The identities of the nodes, in order. -/
def ids (g : Graph) : List NodeId := g.nodes.map (·.id)

/-- Whether an identity is that of a node. -/
def hasNode (g : Graph) (id : NodeId) : Bool := g.nodes.any (·.id == id)

/-- The node of an identity. -/
def node? (g : Graph) (id : NodeId) : Option Vertex := g.nodes.find? (·.id == id)

/-- Where a node stands in the list of nodes. -/
def indexOf? (g : Graph) (id : NodeId) : Option Nat := g.nodes.findIdx? (·.id == id)

/-- The first node of a label. -/
def findByLabel? (g : Graph) (label : String) : Option Vertex := g.nodes.find? (·.label == label)

/-- Whether an edge is there, its relation included. -/
def hasEdge (g : Graph) (e : Edge) : Bool := g.edges.contains e

/-- The number of nodes. -/
def nodeCount (g : Graph) : Nat := g.nodes.length

/-- The number of edges. -/
def edgeCount (g : Graph) : Nat := g.edges.length

/-- Whether there is no node. -/
def isEmpty (g : Graph) : Bool := g.nodes.isEmpty

/-! ## 3. Adding -/

/-- Adds a node; the answer names it. -/
def addNode (g : Graph) (type : String) (kind : NodeKind) (label : String)
    (line : Option Nat := none) : Graph × NodeId :=
  ({ g with nodes := g.nodes ++ [⟨g.nextId, type, kind, label, line⟩], nextId := g.nextId + 1 },
   g.nextId)

/-- Whether an edge may be added: both ends are there and it is new. -/
def admits (g : Graph) (e : Edge) : Bool :=
  g.hasNode e.source && g.hasNode e.target && !g.hasEdge e

/-- Adds an edge that the graph admits; any other changes nothing. -/
def addEdge (g : Graph) (e : Edge) : Graph :=
  if g.admits e then { g with edges := g.edges ++ [e] } else g

@[simp] theorem addNode_snd (g : Graph) (type : String) (kind : NodeKind) (label : String)
    (line : Option Nat) : (g.addNode type kind label line).2 = g.nextId := rfl

@[simp] theorem nodes_addNode (g : Graph) (type : String) (kind : NodeKind) (label : String)
    (line : Option Nat) : (g.addNode type kind label line).1.nodes =
      g.nodes ++ [⟨g.nextId, type, kind, label, line⟩] := rfl

@[simp] theorem edges_addNode (g : Graph) (type : String) (kind : NodeKind) (label : String)
    (line : Option Nat) : (g.addNode type kind label line).1.edges = g.edges := rfl

@[simp] theorem nextId_addNode (g : Graph) (type : String) (kind : NodeKind) (label : String)
    (line : Option Nat) : (g.addNode type kind label line).1.nextId = g.nextId + 1 := rfl

@[simp] theorem ids_addNode (g : Graph) (type : String) (kind : NodeKind) (label : String)
    (line : Option Nat) : (g.addNode type kind label line).1.ids = g.ids ++ [g.nextId] := by
  simp [ids]

@[simp] theorem nodes_addEdge (g : Graph) (e : Edge) : (g.addEdge e).nodes = g.nodes := by
  unfold addEdge
  split <;> rfl

@[simp] theorem nextId_addEdge (g : Graph) (e : Edge) : (g.addEdge e).nextId = g.nextId := by
  unfold addEdge
  split <;> rfl

@[simp] theorem ids_addEdge (g : Graph) (e : Edge) : (g.addEdge e).ids = g.ids := by
  rw [ids, nodes_addEdge, ids]

theorem hasNode_eq_true {g : Graph} {id : NodeId} : g.hasNode id = true ↔ id ∈ g.ids := by
  simp [hasNode, ids]

/-- An edge is admitted if it is new and joins nodes of the graph. -/
theorem admits_eq_true {g : Graph} {e : Edge} :
    g.admits e = true ↔ e.source ∈ g.ids ∧ e.target ∈ g.ids ∧ e ∉ g.edges := by
  simp [admits, hasNode_eq_true, hasEdge, and_assoc]

/-- An edge that is admitted comes last. -/
theorem edges_addEdge_of_admits {g : Graph} {e : Edge} (h : g.admits e = true) :
    (g.addEdge e).edges = g.edges ++ [e] := by
  rw [addEdge, if_pos h]

/-- Adding an edge removes none. -/
theorem mem_edges_addEdge_of_mem {g : Graph} {f : Edge} (h : f ∈ g.edges) (e : Edge) :
    f ∈ (g.addEdge e).edges := by
  unfold addEdge
  split
  · exact List.mem_append_left _ h
  · exact h

/-- The edges of a graph after an edge was added. -/
theorem mem_edges_addEdge {g : Graph} {e f : Edge} (hs : e.source ∈ g.ids)
    (ht : e.target ∈ g.ids) : f ∈ (g.addEdge e).edges ↔ f ∈ g.edges ∨ f = e := by
  by_cases hmem : e ∈ g.edges
  · have : g.admits e = false := by
      rw [Bool.eq_false_iff]
      exact fun h => (admits_eq_true.mp h).2.2 hmem
    rw [addEdge, this]
    constructor
    · exact Or.inl
    · rintro (hf | rfl)
      · exact hf
      · exact hmem
  · rw [edges_addEdge_of_admits (admits_eq_true.mpr ⟨hs, ht, hmem⟩)]
    simp

/-- A graph of one node that only tells something. -/
def placeholder (type : String) (kind : NodeKind) (label : String) : Graph :=
  (empty.addNode type kind label).1

/-! ## 4. Removing -/

/-- Whether an edge starts or ends at a node. -/
def touches (g : Graph) (id : NodeId) : Bool :=
  g.edges.any fun e => e.source == id || e.target == id

/-- The graph without the nodes that no edge touches. -/
def retainConnected (g : Graph) : Graph :=
  { g with nodes := g.nodes.filter fun v => g.touches v.id }

end Graph

end CodeDiagram
