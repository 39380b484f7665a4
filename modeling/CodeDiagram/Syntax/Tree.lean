/-
# Parse trees

A parse tree is what a grammar answers for a text: every node has a grammar kind, a byte range and
the name of the field it fills in its parent, and is marked when it stands for a fault.

* `Tree` is the tree, `Tree.ofRows?` reads it from a list of rows in document order.
* `Node` is a tree together with the tree it hangs from, which is as far as any rule looks up.
* A child is smaller than its parent (`Node.size_lt_of_mem_children`), so walks down a tree end.
* A walk that takes one turn after the other keeps what it has still to see on a `pile`.
-/

namespace CodeDiagram.Syntax

/-! ## 1. Trees -/

/-- What a grammar says about one node, its children aside. -/
structure Info where
  /-- Tells the nodes of one tree apart. -/
  id : Nat
  kind : String
  named : Bool := true
  /-- The grammar supplied this token; it is not in the text. -/
  missing : Bool := false
  /-- The grammar skipped this part of the text. -/
  erroneous : Bool := false
  /-- There is a fault here or below. -/
  hasFault : Bool := false
  /-- First byte. -/
  start : Nat
  /-- The byte after the last. -/
  stop : Nat
  /-- The role in the parent. -/
  field : Option String := none
deriving DecidableEq, Repr, Inhabited

/-- A parse tree. -/
inductive Tree where
  | node (info : Info) (children : List Tree)
deriving Repr, Inhabited

namespace Tree

/-- What the grammar says about the root. -/
def info : Tree → Info
  | .node i _ => i

/-- The trees below the root, in document order. -/
def children : Tree → List Tree
  | .node _ cs => cs

mutual

/-- The number of nodes. -/
def size : Tree → Nat
  | .node _ cs => 1 + sizes cs

/-- The number of nodes of a list of trees. -/
def sizes : List Tree → Nat
  | [] => 0
  | t :: ts => t.size + sizes ts

end

/-- A member of a list has at most as many nodes as the list. -/
theorem size_le_sizes {t : Tree} {ts : List Tree} (h : t ∈ ts) : t.size ≤ sizes ts := by
  induction ts with
  | nil => cases h
  | cons u us ih =>
    rw [sizes]
    rcases List.mem_cons.mp h with rfl | h
    · omega
    · have := ih h
      omega

theorem sizes_append (a b : List Tree) : sizes (a ++ b) = sizes a + sizes b := by
  induction a with
  | nil => simp [sizes]
  | cons t ts ih =>
    simp only [List.cons_append, sizes, ih]
    omega

/-- Some members of a list have at most as many nodes as the list. -/
theorem sizes_filter_le (p : Tree → Bool) (ts : List Tree) : sizes (ts.filter p) ≤ sizes ts := by
  induction ts with
  | nil => simp [sizes]
  | cons t ts ih =>
    rw [List.filter_cons, sizes]
    split
    · rw [sizes]
      omega
    · omega

theorem sizes_children_lt (t : Tree) : sizes t.children < t.size := by
  cases t with
  | node i cs =>
    rw [children, size]
    omega

/-- A child has fewer nodes than its parent. -/
theorem size_lt_of_mem_children {t u : Tree} (h : u ∈ t.children) : u.size < t.size := by
  cases t with
  | node i cs =>
    have := size_le_sizes (show u ∈ cs from h)
    rw [size]
    omega

/-! ## 2. Trees as rows -/

/-- One row of a tree in document order: how deep a node lies, and what it is. -/
structure Row where
  depth : Nat
  info : Info
deriving Repr

/-- Puts a row in front of a forest: the trees that lie deeper become its children. -/
def plant (row : Row) (forest : List (Nat × Tree)) : List (Nat × Tree) :=
  let below := forest.takeWhile fun (depth, _) => row.depth < depth
  let beside := forest.dropWhile fun (depth, _) => row.depth < depth
  (row.depth, .node row.info (below.map (·.2))) :: beside

/-- The tree that a list of rows describes, if there is a row. -/
def ofRows? (rows : List Row) : Option Tree :=
  (rows.foldr plant []).head?.map (·.2)

end Tree

/-! ## 3. Nodes -/

/-- A tree and, unless it is the root of everything, the tree it is a child of. -/
structure Node where
  tree : Tree
  parent : Option Tree := none
deriving Repr, Inhabited

namespace Node

/-- The identity of the node. -/
def id (n : Node) : Nat := n.tree.info.id

/-- The grammar kind. -/
def kind (n : Node) : String := n.tree.info.kind

/-- Whether the grammar gives the node a name of its own. -/
def isNamed (n : Node) : Bool := n.tree.info.named

/-- First byte. -/
def start (n : Node) : Nat := n.tree.info.start

/-- The byte after the last. -/
def stop (n : Node) : Nat := n.tree.info.stop

/-- The number of nodes at and below this one. -/
def size (n : Node) : Nat := n.tree.size

/-- The nodes below, in document order. -/
def children (n : Node) : List Node := n.tree.children.map (⟨·, some n.tree⟩)

/-- The named nodes below. -/
def namedChildren (n : Node) : List Node := n.children.filter (·.isNamed)

/-- The first child that fills a field. -/
def field? (n : Node) (name : String) : Option Node :=
  n.children.find? (·.tree.info.field == some name)

/-- Every child that fills a field. -/
def fields (n : Node) (name : String) : List Node :=
  n.children.filter (·.tree.info.field == some name)

/-- The first child of a grammar kind. -/
def childOfKind? (n : Node) (kind : String) : Option Node :=
  n.children.find? (·.kind == kind)

/-- Whether there is a child of a grammar kind. -/
def hasChildOfKind (n : Node) (kind : String) : Bool := (n.childOfKind? kind).isSome

/-- The number of nodes at and below some nodes. -/
def sizes : List Node → Nat
  | [] => 0
  | n :: ns => n.size + sizes ns

/-! ## 4. What is below is smaller -/

theorem size_lt_of_mem_children {n m : Node} (h : m ∈ n.children) : m.size < n.size := by
  obtain ⟨t, ht, rfl⟩ := List.mem_map.mp h
  exact Tree.size_lt_of_mem_children ht

theorem mem_children_of_mem_namedChildren {n m : Node} (h : m ∈ n.namedChildren) :
    m ∈ n.children := (List.mem_filter.mp h).1

theorem mem_children_of_field? {n m : Node} {name : String} (h : m ∈ n.field? name) :
    m ∈ n.children := List.mem_of_find?_eq_some h

theorem mem_children_of_mem_fields {n m : Node} {name : String} (h : m ∈ n.fields name) :
    m ∈ n.children := (List.mem_filter.mp h).1

theorem sizes_append (a b : List Node) : sizes (a ++ b) = sizes a + sizes b := by
  induction a with
  | nil => simp [sizes]
  | cons n ns ih =>
    simp only [List.cons_append, sizes, ih]
    omega

theorem sizes_reverse (ns : List Node) : sizes ns.reverse = sizes ns := by
  induction ns with
  | nil => rfl
  | cons n ns ih =>
    simp only [List.reverse_cons, sizes_append, sizes, ih]
    omega

theorem sizes_children (n : Node) : sizes n.children + 1 = n.size := by
  have hsum : ∀ (up : Option Tree) (ts : List Tree), sizes (ts.map (⟨·, up⟩)) = Tree.sizes ts := by
    intro up ts
    induction ts with
    | nil => rfl
    | cons t ts ih => rw [List.map_cons, sizes, Tree.sizes, ih, size]
  obtain ⟨⟨i, cs⟩, up⟩ := n
  rw [children, hsum, size, Tree.size, Tree.children]
  omega

/-- The named nodes below are fewer than the nodes from here on. -/
theorem sizes_namedChildren_lt (n : Node) : sizes n.namedChildren < n.size := by
  have hle : ∀ ns : List Node, sizes (ns.filter (·.isNamed)) ≤ sizes ns := by
    intro ns
    induction ns with
    | nil => simp [sizes]
    | cons m ns ih =>
      rw [List.filter_cons, sizes]
      split
      · rw [sizes]
        omega
      · omega
  have := hle n.children
  have := n.sizes_children
  rw [namedChildren]
  omega

end Node

/-! ## 5. Piles -/

/-- Puts what a list has onto a pile, one after the other, so that the last comes to lie on top. -/
def pile {α : Type} (xs waiting : List α) : List α :=
  xs.foldl (fun waiting x => x :: waiting) waiting

theorem pile_eq_append {α : Type} (xs waiting : List α) :
    pile xs waiting = xs.reverse ++ waiting := List.foldl_flip_cons_eq_append'

/-- What is put onto a pile from the last to the first lies there in the order that it had. -/
theorem pile_reverse {α : Type} (xs waiting : List α) :
    pile xs.reverse waiting = xs ++ waiting := by
  rw [pile_eq_append, List.reverse_reverse]

end CodeDiagram.Syntax
