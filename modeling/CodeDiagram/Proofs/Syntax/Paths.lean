/-
# Paths through a tree

A path is a list of positions: each says which of the named children of a node to go on with.  Paths
name the nodes that named children lead to (`Node.at?`), and their lexicographic order is the order
of the nodes in the document: a node comes before those inside it, and what is inside an earlier
child before a later one (`lt_of_branch`, `append_lt_of_lt`).

* `ids_sublist_of_at?`: what stands at a path is part of the tree, identities included.
* `path_unique`: in a tree whose nodes have different identities, an identity belongs to one path.
* `Rooted` says of a list of places that it is a tree from the root down, in document order, and
  `Listing` that it is the whole tree down to a depth.
-/
import CodeDiagram.Syntax.Document
import Mathlib.Data.List.Flatten
import Mathlib.Data.List.Induction
import Mathlib.Data.List.Nodup

namespace CodeDiagram.Syntax

/-! ## 1. The identities in a tree -/

namespace Tree

mutual

/-- The identities of the nodes of a tree, unnamed ones included, in document order. -/
def ids : Tree → List Nat
  | .node info children => info.id :: idsAmong children

/-- The identities of the nodes of a list of trees. -/
def idsAmong : List Tree → List Nat
  | [] => []
  | t :: ts => t.ids ++ idsAmong ts

end

theorem idsAmong_eq_flatMap : ∀ ts : List Tree, idsAmong ts = ts.flatMap ids
  | [] => rfl
  | t :: ts => by rw [idsAmong, idsAmong_eq_flatMap ts, List.flatMap_cons]

mutual

theorem length_ids : ∀ t : Tree, t.ids.length = t.size
  | .node _ cs => by
    rw [ids, size, List.length_cons, length_idsAmong cs]
    omega

theorem length_idsAmong : ∀ ts : List Tree, (idsAmong ts).length = sizes ts
  | [] => rfl
  | t :: ts => by rw [idsAmong, sizes, List.length_append, length_ids t, length_idsAmong ts]

end

mutual

/-- The nodes of a tree, unnamed ones included, in document order. -/
def nodesBelow (up : Option Tree) : Tree → List Node
  | .node info children =>
    ⟨.node info children, up⟩ :: nodesBelowAmong (.node info children) children

/-- The nodes of the children of a tree. -/
def nodesBelowAmong (up : Tree) : List Tree → List Node
  | [] => []
  | t :: ts => t.nodesBelow (some up) ++ nodesBelowAmong up ts

end

theorem nodesBelowAmong_eq_flatMap (up : Tree) (ts : List Tree) :
    nodesBelowAmong up ts = ts.flatMap (nodesBelow (some up)) := by
  induction ts with
  | nil => rfl
  | cons t ts ih => rw [nodesBelowAmong, ih, List.flatMap_cons]

end Tree

namespace Node

/-- The identities at and below a node. -/
def ids (n : Node) : List Nat := n.tree.ids

theorem ids_eq (n : Node) : n.ids = n.id :: n.children.flatMap ids := by
  obtain ⟨⟨i, cs⟩, up⟩ := n
  simp only [ids, Tree.ids, Tree.idsAmong_eq_flatMap, id, Tree.info, children, Tree.children,
    List.flatMap_map]

theorem id_mem_ids (n : Node) : n.id ∈ n.ids := by
  rw [ids_eq]
  exact List.mem_cons_self

/-- The named children hold part of the identities of the node. -/
theorem namedChildren_ids_sublist (n : Node) :
    (n.id :: n.namedChildren.flatMap ids).Sublist n.ids := by
  rw [ids_eq]
  exact (List.filter_sublist.flatMap ids).cons_cons _

theorem ids_sublist_of_mem_children {n m : Node} (h : m ∈ n.children) : m.ids.Sublist n.ids := by
  rw [ids_eq n, List.flatMap]
  exact (List.sublist_flatten_of_mem (List.mem_map_of_mem h)).cons _

/-- A node is another one or somewhere below it. -/
inductive IsInside (n : Node) : Node → Prop
  | self : IsInside n n
  | child {m c : Node} : IsInside n m → c ∈ m.children → IsInside n c

theorem IsInside.trans {n m c : Node} (h : n.IsInside m) (h' : m.IsInside c) : n.IsInside c := by
  induction h' with
  | self => exact h
  | child _ hc ih => exact .child ih hc

theorem IsInside.ids_sublist {n m : Node} (h : n.IsInside m) : m.ids.Sublist n.ids := by
  induction h with
  | self => exact List.Sublist.refl _
  | child _ hc ih => exact (ids_sublist_of_mem_children hc).trans ih

/-- The nodes inside a node, in document order. -/
def inside (n : Node) : List Node := n.tree.nodesBelow n.parent

theorem inside_eq (n : Node) : n.inside = n :: n.children.flatMap inside := by
  obtain ⟨⟨i, cs⟩, up⟩ := n
  rw [inside, Tree.nodesBelow, Tree.nodesBelowAmong_eq_flatMap, children, List.flatMap_map]
  rfl

theorem mem_inside_of_mem_children {n m c : Node} (hm : m ∈ n.inside) (hc : c ∈ m.children) :
    c ∈ n.inside := by
  induction hsize : n.size using Nat.strongRecOn generalizing n with
  | ind size ih =>
    rw [inside_eq] at hm ⊢
    rcases List.mem_cons.mp hm with rfl | hm
    · exact List.mem_cons_of_mem _ (List.mem_flatMap.mpr ⟨c, hc, inside_eq c ▸ List.mem_cons_self⟩)
    · obtain ⟨k, hk, hm⟩ := List.mem_flatMap.mp hm
      have hlt : k.size < size := hsize ▸ size_lt_of_mem_children hk
      exact List.mem_cons_of_mem _ (List.mem_flatMap.mpr ⟨k, hk, ih _ hlt hm rfl⟩)

/-- All that is inside a node is listed. -/
theorem mem_inside {n m : Node} (h : n.IsInside m) : m ∈ n.inside := by
  induction h with
  | self =>
    rw [inside_eq]
    exact List.mem_cons_self
  | child _ hc ih => exact mem_inside_of_mem_children ih hc

/-- The nodes inside a node have its identities. -/
theorem map_id_inside (n : Node) : n.inside.map id = n.ids := by
  induction hsize : n.size using Nat.strongRecOn generalizing n with
  | ind size ih =>
    rw [inside_eq, ids_eq, List.map_cons, List.map_flatMap]
    refine congrArg (n.id :: ·) (List.flatMap_congr fun c hc => ih c.size ?_ c rfl)
    exact hsize ▸ size_lt_of_mem_children hc

/-- Nodes inside another one are told apart by their identities. -/
theorem IsInside.eq_of_id_eq {n a b : Node} (hn : n.ids.Nodup) (ha : n.IsInside a)
    (hb : n.IsInside b) (hid : a.id = b.id) : a = b := by
  rw [← map_id_inside] at hn
  exact List.inj_on_of_nodup_map hn (mem_inside ha) (mem_inside hb) hid

/-! ## 2. Where a path leads -/

/-- The node that a path leads to, if there is one. -/
def at? (n : Node) : List Nat → Option Node
  | [] => some n
  | i :: path => n.namedChildren[i]?.bind (·.at? path)

@[simp] theorem at?_nil (n : Node) : n.at? [] = some n := rfl

theorem at?_cons (n : Node) (i : Nat) (p : List Nat) :
    n.at? (i :: p) = n.namedChildren[i]?.bind (·.at? p) := rfl

theorem at?_append (n : Node) (p q : List Nat) : n.at? (p ++ q) = (n.at? p).bind (·.at? q) := by
  induction p generalizing n with
  | nil => rfl
  | cons i p ih =>
    rw [List.cons_append, at?_cons, at?_cons, Option.bind_assoc]
    exact Option.bind_congr fun m _ => ih m

/-- One step further on a path is a named child of the node that the path leads to. -/
theorem at?_concat {n m : Node} {p : List Nat} (h : n.at? p = some m) (i : Nat) :
    n.at? (p ++ [i]) = m.namedChildren[i]? := by
  rw [at?_append, h, Option.bind_some, at?_cons]
  simp

/-- A path that leads somewhere leads through the beginnings of the path. -/
theorem at?_isSome_of_prefix {n : Node} {p q : List Nat} (hpq : p <+: q)
    (h : (n.at? q).isSome) : (n.at? p).isSome := by
  obtain ⟨r, rfl⟩ := hpq
  rw [at?_append] at h
  cases hp : n.at? p with
  | none => simp [hp] at h
  | some m => rfl

/-- What a path leads to is inside. -/
theorem isInside_of_at? {n m : Node} {p : List Nat} (h : n.at? p = some m) : n.IsInside m := by
  induction p generalizing n with
  | nil =>
    obtain rfl : n = m := Option.some.inj h
    exact .self
  | cons i p ih =>
    obtain ⟨c, hc, hm⟩ := Option.bind_eq_some_iff.mp h
    have hchild := mem_children_of_mem_namedChildren (List.mem_of_getElem? hc)
    exact .trans (.child .self hchild) (ih hm)

/-- **What a path leads to is part of the tree.** -/
theorem ids_sublist_of_at? {n m : Node} {p : List Nat} (h : n.at? p = some m) :
    m.ids.Sublist n.ids := by
  induction p generalizing n with
  | nil =>
    rw [at?_nil, Option.some.injEq] at h
    rw [h]
  | cons i p ih =>
    obtain ⟨c, hc, hm⟩ := Option.bind_eq_some_iff.mp h
    exact (ih hm).trans (ids_sublist_of_mem_children
      (mem_children_of_mem_namedChildren (List.mem_of_getElem? hc)))

/-- Below different named children there are different identities. -/
theorem ids_disjoint_of_ne {n a b : Node} (hn : n.ids.Nodup) {i j : Nat} (hij : i ≠ j)
    (ha : n.namedChildren[i]? = some a) (hb : n.namedChildren[j]? = some b) :
    List.Disjoint a.ids b.ids := by
  have hflat := (hn.sublist n.namedChildren_ids_sublist).of_cons
  have hpair := List.pairwise_iff_getElem.mp (List.nodup_flatMap.mp hflat).2
  obtain ⟨hi, rfl⟩ := List.getElem?_eq_some_iff.mp ha
  obtain ⟨hj, rfl⟩ := List.getElem?_eq_some_iff.mp hb
  rcases Nat.lt_or_gt_of_ne hij with hlt | hlt
  · exact hpair i j hi hj hlt
  · exact fun x hxa hxb => hpair j i hj hi hlt hxb hxa

/-- No identity of a node comes up again below it. -/
theorem id_ne_of_at?_cons {n m : Node} (hn : n.ids.Nodup) {i : Nat} {p : List Nat}
    (h : n.at? (i :: p) = some m) : n.id ≠ m.id := by
  obtain ⟨c, hc, hm⟩ := Option.bind_eq_some_iff.mp h
  intro he
  have hmem : m.id ∈ n.namedChildren.flatMap ids :=
    List.mem_flatMap.mpr ⟨c, List.mem_of_getElem? hc, (ids_sublist_of_at? hm).mem m.id_mem_ids⟩
  exact (List.nodup_cons.mp (hn.sublist n.namedChildren_ids_sublist)).1 (he ▸ hmem)

/-- **An identity belongs to one path.** -/
theorem path_unique {n a b : Node} (hn : n.ids.Nodup) {p q : List Nat} (ha : n.at? p = some a)
    (hb : n.at? q = some b) (he : a.id = b.id) : p = q := by
  induction p generalizing n q with
  | nil =>
    cases q with
    | nil => rfl
    | cons j q =>
      rw [at?_nil, Option.some.injEq] at ha
      exact absurd (ha ▸ he) (id_ne_of_at?_cons hn hb)
  | cons i p ih =>
    cases q with
    | nil =>
      rw [at?_nil, Option.some.injEq] at hb
      exact absurd (hb ▸ he.symm) (id_ne_of_at?_cons hn ha)
    | cons j q =>
      obtain ⟨c, hc, hca⟩ := Option.bind_eq_some_iff.mp ha
      obtain ⟨e, hce, heb⟩ := Option.bind_eq_some_iff.mp hb
      by_cases hij : i = j
      · subst hij
        obtain rfl : c = e := Option.some.inj (hc.symm.trans hce)
        have hcn : c.ids.Nodup := hn.sublist (ids_sublist_of_mem_children
          (mem_children_of_mem_namedChildren (List.mem_of_getElem? hc)))
        rw [ih hcn hca heb]
      · have hdis := ids_disjoint_of_ne hn hij hc hce
        have h1 : a.id ∈ c.ids := (ids_sublist_of_at? hca).mem a.id_mem_ids
        have h2 : a.id ∈ e.ids := he ▸ (ids_sublist_of_at? heb).mem b.id_mem_ids
        exact absurd h2 (hdis h1)

/-- **What has its identity inside a node is below the node.** -/
theorem exists_at?_of_id_mem {n a b : Node} (hn : n.ids.Nodup) {p q : List Nat}
    (ha : n.at? p = some a) (hb : n.at? q = some b) (h : b.id ∈ a.ids) :
    ∃ r, a.at? r = some b := by
  induction p generalizing n q with
  | nil =>
    rw [at?_nil, Option.some.injEq] at ha
    exact ⟨q, ha ▸ hb⟩
  | cons i p ih =>
    obtain ⟨c, hc, hca⟩ := Option.bind_eq_some_iff.mp ha
    have hbc : b.id ∈ c.ids := (ids_sublist_of_at? hca).mem h
    have hcn := mem_children_of_mem_namedChildren (List.mem_of_getElem? hc)
    cases q with
    | nil =>
      rw [at?_nil, Option.some.injEq] at hb
      have hmem : n.id ∈ n.children.flatMap ids := List.mem_flatMap.mpr ⟨c, hcn, hb ▸ hbc⟩
      rw [ids_eq] at hn
      exact absurd hmem (List.nodup_cons.mp hn).1
    | cons j q =>
      obtain ⟨e, hce, heb⟩ := Option.bind_eq_some_iff.mp hb
      by_cases hij : i = j
      · subst hij
        obtain rfl : c = e := Option.some.inj (hc.symm.trans hce)
        exact ih (hn.sublist (ids_sublist_of_mem_children hcn)) hca heb
      · have hdis := ids_disjoint_of_ne hn hij hc hce
        exact absurd ((ids_sublist_of_at? heb).mem b.id_mem_ids) (hdis hbc)

end Node

/-- All nodes of a document, those outside the visible root included. -/
def Document.nodes (d : Document) : List Node := (⟨d.tree, none⟩ : Node).inside

/-- The visible root is in the tree of a document. -/
theorem Document.isInside_root (d : Document) : (⟨d.tree, none⟩ : Node).IsInside d.root := by
  unfold root
  dsimp only
  split
  · cases hf : (Node.namedChildren ⟨d.tree, none⟩).head?.bind (·.field? "body") with
    | none => exact .self
    | some m =>
      obtain ⟨c, hc, hm⟩ := Option.bind_eq_some_iff.mp hf
      have hchild := Node.mem_children_of_mem_namedChildren (List.mem_of_head? hc)
      exact .child (.child .self hchild) (Node.mem_children_of_field? hm)
  · exact .self

theorem Document.mem_nodes_of_isInside {d : Document} {n : Node} (h : d.root.IsInside n) :
    n ∈ d.nodes := Node.mem_inside (d.isInside_root.trans h)

theorem Document.root_ids_sublist (d : Document) : d.root.ids.Sublist d.tree.ids :=
  d.isInside_root.ids_sublist

/-! ## 3. Document order -/

/-- A node comes before what is inside it. -/
theorem lt_append_cons (p : List Nat) (i : Nat) (q : List Nat) : p < p ++ i :: q := by
  induction p with
  | nil => exact List.nil_lt_cons i q
  | cons a p ih => exact List.cons_lt_cons_iff.mpr (Or.inr ⟨rfl, ih⟩)

/-- What is inside an earlier child comes before what is inside a later one. -/
theorem lt_of_branch (p : List Nat) {i j : Nat} (h : i < j) (q r : List Nat) :
    p ++ i :: q < p ++ j :: r := by
  induction p with
  | nil => exact List.cons_lt_cons_iff.mpr (Or.inl h)
  | cons a p ih => exact List.cons_lt_cons_iff.mpr (Or.inr ⟨rfl, ih⟩)

/-- A node that comes later, but not inside, comes after all that is inside. -/
theorem append_lt_of_lt {p s : List Nat} (hlt : p < s) (hpre : ¬ p <+: s) (q : List Nat) :
    p ++ q < s := by
  induction p generalizing s with
  | nil => exact absurd (List.nil_prefix) hpre
  | cons a p ih =>
    cases s with
    | nil => exact absurd hlt (List.not_lt_nil _)
    | cons b s =>
      rcases List.cons_lt_cons_iff.mp hlt with hab | ⟨rfl, hps⟩
      · exact List.cons_lt_cons_iff.mpr (Or.inl hab)
      · refine List.cons_lt_cons_iff.mpr (Or.inr ⟨rfl, ih hps ?_⟩)
        exact fun hp => hpre ((List.prefix_cons_inj a).mpr hp)

/-! ## 4. Lists of places -/

/-- A path and the node that it leads to. -/
structure Place where
  path : List Nat
  node : Node

/-- `ps` are the root and places that are each directly inside another of them, in document
order. -/
structure Rooted (root : Node) (ps : List Place) : Prop where
  root_mem : ⟨[], root⟩ ∈ ps
  held : ∀ k ∈ ps, k.path ≠ [] → k.path.dropLast ∈ ps.map (·.path)
  sorted : (ps.map (·.path)).Pairwise (· < ·)

namespace Rooted

variable {root : Node} {ps : List Place}

theorem nodup (h : Rooted root ps) : (ps.map (·.path)).Nodup := by
  refine List.Pairwise.imp ?_ h.sorted
  rintro p q hlt rfl
  exact List.lt_irrefl p hlt

/-- A path stands at one position. -/
theorem index_unique (h : Rooted root ps) {i j : Nat} {k l : Place} (hi : ps[i]? = some k)
    (hj : ps[j]? = some l) (he : k.path = l.path) : i = j := by
  have hi' : (ps.map (·.path))[i]? = some k.path := by rw [List.getElem?_map, hi]; rfl
  have hj' : (ps.map (·.path))[j]? = some k.path := by rw [List.getElem?_map, hj, he]; rfl
  have hlt : i < (ps.map (·.path)).length := (List.getElem?_eq_some_iff.mp hi').1
  exact (List.getElem?_inj hlt h.nodup).mp (hi'.trans hj'.symm)

/-- With a node there are the nodes that it is in. -/
theorem exists_of_prefix (h : Rooted root ps) {k : Place} (hk : k ∈ ps) {p : List Nat}
    (hp : p <+: k.path) : ∃ (i : Nat) (m : Node), ps[i]? = some ⟨p, m⟩ := by
  obtain ⟨q, hq⟩ := hp
  -- from the node outwards
  induction q using List.reverseRecOn generalizing k with
  | nil =>
    obtain ⟨i, hi⟩ := List.mem_iff_getElem?.mp hk
    rw [List.append_nil] at hq
    exact ⟨i, k.node, hq ▸ hi⟩
  | append_singleton q a ih =>
    rw [← List.append_assoc] at hq
    have hout := h.held k hk (by simp [← hq])
    rw [← hq, List.dropLast_concat] at hout
    obtain ⟨l, hl, he⟩ := List.mem_map.mp hout
    exact ih hl he.symm

/-- The root comes first. -/
theorem head (h : Rooted root ps) : ps[0]? = some ⟨[], root⟩ := by
  obtain ⟨i, hi⟩ := List.mem_iff_getElem?.mp h.root_mem
  cases i with
  | zero => exact hi
  | succ i =>
    obtain ⟨hlen, he⟩ := List.getElem?_eq_some_iff.mp hi
    have hlt := List.pairwise_iff_getElem.mp h.sorted 0 (i + 1) (by simp; omega)
      (by simpa using hlen) (by omega)
    simp only [List.getElem_map, he] at hlt
    exact absurd hlt (List.not_lt_nil _)

end Rooted

/-- `ps` lists every node that named children lead to from `root` down to the depth `limit`, once
and in document order. -/
structure Listing (root : Node) (limit : Nat) (ps : List Place) : Prop where
  mem_iff : ∀ k : Place, k ∈ ps ↔ k.path.length ≤ limit ∧ root.at? k.path = some k.node
  sorted : (ps.map (·.path)).Pairwise (· < ·)

namespace Listing

variable {root : Node} {limit : Nat} {ps : List Place}

theorem at? (h : Listing root limit ps) {k : Place} (hk : k ∈ ps) :
    root.at? k.path = some k.node := ((h.mem_iff k).mp hk).2

/-- A listing is a tree from the root down. -/
theorem rooted (h : Listing root limit ps) : Rooted root ps where
  root_mem := (h.mem_iff _).mpr ⟨Nat.zero_le _, rfl⟩
  held := by
    intro k hk _
    obtain ⟨hlen, hat⟩ := (h.mem_iff k).mp hk
    have hpre := List.dropLast_prefix k.path
    have hsome : (root.at? k.path.dropLast).isSome :=
      Node.at?_isSome_of_prefix hpre (by rw [hat]; rfl)
    obtain ⟨m, hm⟩ := Option.isSome_iff_exists.mp hsome
    exact List.mem_map.mpr
      ⟨⟨_, m⟩, (h.mem_iff _).mpr ⟨Nat.le_trans hpre.length_le hlen, hm⟩, rfl⟩
  sorted := h.sorted

theorem nodup (h : Listing root limit ps) : (ps.map (·.path)).Nodup := h.rooted.nodup

/-- A listing has every node that named children lead to, if nothing lies below its last level. -/
theorem mem_of_uncut (h : Listing root limit ps)
    (huncut : ∀ k ∈ ps, k.path.length = limit → k.node.namedChildren = []) {path : List Nat}
    {n : Node} (hn : root.at? path = some n) : ⟨path, n⟩ ∈ ps := by
  refine (h.mem_iff _).mpr ⟨Nat.le_of_not_lt fun hlt => ?_, hn⟩
  obtain ⟨m, hm⟩ := Option.isSome_iff_exists.mp
    (Node.at?_isSome_of_prefix (List.take_prefix limit path) (by rw [hn]; rfl))
  have hlength : (path.take limit).length = limit := by
    rw [List.length_take]
    exact Nat.min_eq_left (Nat.le_of_lt hlt)
  have hleaf := huncut ⟨path.take limit, m⟩
    ((h.mem_iff _).mpr ⟨Nat.le_of_eq hlength, hm⟩) hlength
  rw [← List.take_append_drop limit path, Node.at?_append, hm, Option.bind_some,
    List.drop_eq_getElem_cons hlt, Node.at?_cons, hleaf] at hn
  cases hn

end Listing

end CodeDiagram.Syntax
