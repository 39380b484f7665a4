/-
# Outlines

The outline of a document is the tree of its named nodes, down to a depth limit, as a graph: a node
for each, and an edge from each node to the nodes directly inside it.  The declarations of the text
are collected on the way.  A node whose label or declarations cannot be had stays in the graph, and
a diagnostic says what was wrong.

* `Visit` is a node that waits to be added, with what is known of its place.
* `Outline.add` adds one of them; `Outline.grow` goes on with the nodes inside it, and never adds a
  node of the tree a second time.
-/
import CodeDiagram.FrontEnd.Basic
import CodeDiagram.Text.Label

namespace CodeDiagram

open Syntax

/-! ## 1. Visits -/

/-- A node that waits to be added: how deep it lies, and which node of the graph it is in. -/
structure Visit where
  node : Node
  depth : Nat := 0
  parent : Option NodeId := none

namespace Visit

/-- Whether the limit keeps something below a visited node out. -/
def isCut (v : Visit) (limit : Nat) : Bool :=
  limit ≤ v.depth && !v.node.namedChildren.isEmpty

/-- The visits that the node of a visit leads to, once it is in the graph. -/
def inside (v : Visit) (limit : Nat) (id : NodeId) : List Visit :=
  if v.depth < limit then v.node.namedChildren.map (⟨·, v.depth + 1, some id⟩) else []

/-- The nodes that visits may lead to. -/
def sizes (vs : List Visit) : Nat := Node.sizes (vs.map (·.node))

theorem sizes_cons (v : Visit) (vs : List Visit) : sizes (v :: vs) = v.node.size + sizes vs := rfl

theorem sizes_inside_append_lt (v : Visit) (limit : Nat) (id : NodeId) (vs : List Visit) :
    sizes (v.inside limit id ++ vs) < sizes (v :: vs) := by
  have hle : sizes (v.inside limit id) ≤ Node.sizes v.node.namedChildren := by
    unfold inside
    split
    · simp [sizes, List.map_map, Function.comp_def]
    · simp [sizes, Node.sizes]
  have := v.node.sizes_namedChildren_lt
  rw [sizes_cons, sizes, List.map_append, Node.sizes_append]
  simp only [sizes] at *
  omega

end Visit

/-! ## 2. Labels -/

/-- The label of a node by the rule of its kind, in full length. -/
def FrontEnd.fullLabel (fe : FrontEnd) (d : Document) (n : Node) :
    Except ExtractionFault String :=
  match (fe.classify n.kind).labelRule with
  | .typeTag => .ok n.kind
  | .nodeText => (d.textOf n).map fun s => String.ofList (Text.firstLine s.toList)
  | .callee =>
    match fe.calleeName d n with
    | some name => .ok name
    | none => .error (.unnamed n.kind)
  | .declaredName => d.declaredName n
  | .importPath => (d.textOf n).map fun s => String.ofList (Text.importPath s.toList)

/-- The label of a node: cut to a length, or the whole grammar kind if the rule gives none. -/
def FrontEnd.label (fe : FrontEnd) (labelLength : Nat) (d : Document) (n : Node) : String :=
  match fe.fullLabel d n with
  | .ok label => Text.truncate labelLength label
  | .error _ => n.kind

/-- The cause of a failure. -/
def failure? {ε α : Type} : Except ε α → Option ε
  | .ok _ => none
  | .error e => some e

/-- What went wrong at a node: with its label, then with its declarations. -/
def FrontEnd.faults (fe : FrontEnd) (d : Document) (n : Node) : List ExtractionFault :=
  (failure? (fe.fullLabel d n)).toList ++ (failure? (fe.declarations d n)).toList

/-! ## 3. Building -/

/-- A graph, and what was learnt while it was built. -/
structure Outline where
  graph : Graph := .empty
  declarations : Declarations := {}
  diagnostics : List Diagnostic := []
  /-- Something lies below the depth limit. -/
  isCut : Bool := false

namespace Outline

/-- Adds one visited node; the answer names it. -/
def add (fe : FrontEnd) (labelLength : Nat) (d : Document) (o : Outline) (v : Visit) :
    Outline × NodeId :=
  let line := d.line v.node
  let (graph, id) :=
    o.graph.addNode v.node.kind (fe.classify v.node.kind) (fe.label labelLength d v.node) line
  let graph :=
    match v.parent with
    | some parent => graph.addEdge ⟨parent, id, some .contains⟩
    | none => graph
  ({ o with
     graph
     declarations := o.declarations ++ ((fe.declarations d v.node).toOption.getD {})
     diagnostics :=
       o.diagnostics ++ (fe.faults d v.node).map fun f => ⟨id, some line, f.message⟩ }, id)

/-- Adds the node of a visit and notes whether the limit cuts off what is inside it. -/
def visit (fe : FrontEnd) (limit labelLength : Nat) (d : Document) (o : Outline) (v : Visit) :
    Outline × NodeId :=
  let (o, id) := o.add fe labelLength d v
  ({ o with isCut := o.isCut || v.isCut limit }, id)

/-- Makes the visits of a list one after the other; those that a visit leads to come first.  A node
that was seen before is passed over. -/
def grow (fe : FrontEnd) (limit labelLength : Nat) (d : Document) (seen : List Nat) (o : Outline) :
    List Visit → Outline
  | [] => o
  | v :: rest =>
    if seen.contains v.node.id then o.grow fe limit labelLength d seen rest
    else
      have := v.sizes_inside_append_lt limit (o.visit fe limit labelLength d v).2 rest
      (o.visit fe limit labelLength d v).1.grow fe limit labelLength d (v.node.id :: seen)
        (v.inside limit (o.visit fe limit labelLength d v).2 ++ rest)
termination_by visits => Visit.sizes visits
decreasing_by
  · rw [Visit.sizes_cons]
    have : 0 < v.node.size := Nat.lt_of_le_of_lt (Nat.zero_le _) v.node.sizes_namedChildren_lt
    omega
  · exact this

/-- The outline of a document down to a depth limit. -/
def build (fe : FrontEnd) (limit labelLength : Nat) (d : Document) : Outline :=
  grow fe limit labelLength d [] {} [{ node := d.root }]

/-- What is told of a document beside its diagram. -/
def metadata (o : Outline) : Metadata :=
  { o.declarations with
    totalNodes := o.graph.nodeCount
    maxDepthReached := o.isCut }

end Outline

/-! ## 4. Texts that cannot be read -/

/-- The type of the one node that stands for such a text. -/
def parseErrorType : String := "parse_error"

/-- One node that tells the error. -/
def parseErrorGraph (e : SyntaxError) : Graph :=
  .placeholder parseErrorType .message e.message

/-- What is told of a text that cannot be read. -/
def parseErrorMetadata (e : SyntaxError) : Metadata :=
  { parseError := some e.message, totalNodes := (parseErrorGraph e).nodeCount }

end CodeDiagram
