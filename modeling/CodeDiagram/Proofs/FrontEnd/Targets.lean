/-
# What a target binds

A target of Python is made of containers inside each other.  `IsEnd` says which places in a target
stand at the ends of the containers, and `IsFrontier` that a list has all of them, once and in
document order; `ends` is that list (`isFrontier_ends`).

Taking a target apart in turns, with a pile of nodes that wait, goes through the ends in this order
(`takeApart_eq`), so each end is bound or left to be read, and no other node is
(`bindTargets_isPartition`).
-/
import CodeDiagram.FrontEnd.Targets
import CodeDiagram.Proofs.CallGraph.Sites
import CodeDiagram.Proofs.FrontEnd.Rereading
import CodeDiagram.Proofs.Syntax.Braces

namespace CodeDiagram.Python

open Syntax

variable {d : Document} {t n : Node} {binding : Binding}

/-! ## 1. The ends of the containers -/

/-- A place in a target stands at an end of its containers: all around it are containers, and it is
none itself. -/
structure IsEnd (t : Node) (k : Place) : Prop where
  at? : t.at? k.path = some k.node
  around : ∀ m ∈ t.around k.path, isContainer m.kind = true
  isEnd : isContainer k.node.kind = false

/-- `ps` are the places at the ends of the containers of a target, in document order. -/
structure IsFrontier (t : Node) (ps : List Place) : Prop where
  mem_iff : ∀ k, k ∈ ps ↔ IsEnd t k
  sorted : (ps.map (·.path)).Pairwise (· < ·)

/-- The places at the ends of the containers of a target. -/
def ends (t : Node) : List Place :=
  if isContainer t.kind then
    t.namedChildren.attach.zipIdx.flatMap fun (⟨c, h⟩, i) =>
      have : c.size < t.size :=
        Node.size_lt_of_mem_children (Node.mem_children_of_mem_namedChildren h)
      (ends c).map fun k => ⟨i :: k.path, k.node⟩
  else [⟨[], t⟩]
termination_by t.size

theorem ends_eq (t : Node) : ends t =
    if isContainer t.kind then
      t.namedChildren.zipIdx.flatMap fun (c, i) => (ends c).map fun k => ⟨i :: k.path, k.node⟩
    else [⟨[], t⟩] := by
  rw [ends]
  split
  · conv => rhs; rw [← List.attach_map_subtype_val t.namedChildren]
    rw [List.zipIdx_map, List.flatMap_map]
    rfl
  · rfl

theorem isEnd_nil {m : Node} : IsEnd t ⟨[], m⟩ ↔ t = m ∧ isContainer t.kind = false := by
  constructor
  · rintro ⟨hat, -, hend⟩
    obtain rfl : t = m := Option.some.inj hat
    exact ⟨rfl, hend⟩
  · rintro ⟨rfl, hend⟩
    exact ⟨rfl, by simp [Node.around], hend⟩

/-- The ends inside a container are the ends of the nodes in it. -/
theorem isEnd_cons {i : Nat} {p : List Nat} {m : Node} : IsEnd t ⟨i :: p, m⟩ ↔
    isContainer t.kind = true ∧ ∃ c, t.namedChildren[i]? = some c ∧ IsEnd c ⟨p, m⟩ := by
  constructor
  · rintro ⟨hat, haround, hend⟩
    obtain ⟨c, hc, hm⟩ := Option.bind_eq_some_iff.mp hat
    rw [Node.around_cons hc, List.forall_mem_cons] at haround
    exact ⟨haround.1, c, hc, hm, haround.2, hend⟩
  · rintro ⟨hk, c, hc, hm, haround, hend⟩
    refine ⟨?_, ?_, hend⟩
    · rw [Node.at?_cons, hc]
      exact hm
    · rw [Node.around_cons hc, List.forall_mem_cons]
      exact ⟨hk, haround⟩

theorem mem_ends {k : Place} : k ∈ ends t ↔ IsEnd t k := by
  obtain ⟨p, m⟩ := k
  induction t using frontier.induct generalizing p with
  | case1 t hk ih =>
    rw [ends_eq, if_pos hk]
    simp only [List.mem_flatMap, List.mem_map, Prod.exists, List.mem_zipIdx_iff_getElem?]
    cases p with
    | nil => simp [isEnd_nil, hk]
    | cons i p =>
      rw [isEnd_cons]
      constructor
      · rintro ⟨c, j, hc, l, hl, hlk⟩
        obtain ⟨⟨rfl, rfl⟩, rfl⟩ : (j = i ∧ l.path = p) ∧ l.node = m := by simpa using hlk
        exact ⟨hk, c, hc, (ih c (List.mem_of_getElem? hc) l.path).mp hl⟩
      · rintro ⟨-, c, hc, hend⟩
        exact ⟨c, i, hc, ⟨p, m⟩, (ih c (List.mem_of_getElem? hc) p).mpr hend, rfl⟩
  | case2 t hk =>
    rw [ends_eq, if_neg hk, List.mem_singleton, Place.mk.injEq]
    cases p with
    | nil =>
      rw [isEnd_nil, eq_comm (a := m)]
      simp [hk]
    | cons i p => simp [isEnd_cons, hk]

/-- Positions in a list are in order. -/
theorem pairwise_lt_zipIdx {α : Type} (l : List α) :
    l.zipIdx.Pairwise fun a b => a.2 < b.2 := by
  have h : (l.zipIdx.map (·.2)).Pairwise (· < ·) := by
    rw [List.zipIdx_map_snd]
    exact List.pairwise_lt_range'
  exact List.pairwise_map.mp h

theorem sorted_ends (t : Node) : ((ends t).map (·.path)).Pairwise (· < ·) := by
  induction t using frontier.induct with
  | case1 t hk ih =>
    rw [ends_eq, if_pos hk, List.pairwise_map, List.pairwise_flatMap]
    constructor
    · rintro ⟨c, i⟩ hc
      have hmem := List.mem_of_getElem? (List.mem_zipIdx_iff_getElem?.mp hc)
      rw [List.pairwise_map]
      exact (List.pairwise_map.mp (ih c hmem)).imp fun h =>
        List.cons_lt_cons_iff.mpr (Or.inr ⟨rfl, h⟩)
    · refine (pairwise_lt_zipIdx _).imp fun {a b} hlt k hk l hl => ?_
      obtain ⟨k, -, rfl⟩ := List.mem_map.mp hk
      obtain ⟨l, -, rfl⟩ := List.mem_map.mp hl
      exact List.cons_lt_cons_iff.mpr (Or.inl hlt)
  | case2 t hk =>
    rw [ends_eq, if_neg hk]
    exact List.pairwise_singleton _ _

theorem isFrontier_ends (t : Node) : IsFrontier t (ends t) := ⟨fun _ => mem_ends, sorted_ends t⟩

/-- The nodes at the ends. -/
theorem map_node_ends (t : Node) : (ends t).map (·.node) = frontier t := by
  induction t using frontier.induct with
  | case1 t hk ih =>
    rw [ends_eq, frontier_eq, if_pos hk, if_pos hk, List.map_flatMap]
    conv => rhs; rw [← List.zipIdx_map_fst 0 t.namedChildren, List.flatMap_map]
    refine List.flatMap_congr fun x hx => ?_
    have hmem := List.mem_of_getElem? (List.mem_zipIdx_iff_getElem?.mp hx)
    rw [List.map_map, ← ih x.1 hmem]
    rfl
  | case2 t hk =>
    rw [ends_eq, frontier_eq, if_neg hk, if_neg hk]
    rfl

/-- What stands at the ends is inside. -/
theorem mem_inside_of_mem_frontier (h : n ∈ frontier t) : n ∈ t.inside := by
  rw [← map_node_ends] at h
  obtain ⟨k, hk, rfl⟩ := List.mem_map.mp h
  exact Node.mem_inside (Node.isInside_of_at? (mem_ends.mp hk).at?)

/-! ## 2. The order of the ends in the text -/

/-- The named nodes in a node are inside it, one after the other. -/
theorem namedChildren_isLaidOut (h : t.tree.IsLaidOut) :
    (∀ c ∈ t.namedChildren, t.start ≤ c.start ∧ c.stop ≤ t.stop) ∧
      t.namedChildren.Pairwise fun a b => a.stop ≤ b.start := by
  obtain ⟨-, hwithin, hsorted⟩ := h
  refine ⟨fun c hc => ?_, (List.pairwise_map.mpr hsorted).sublist List.filter_sublist⟩
  obtain ⟨u, hu, rfl⟩ := List.mem_map.mp (Node.mem_children_of_mem_namedChildren hc)
  exact hwithin u hu

/-- The nodes below a named node in a node are below the node. -/
theorem nodes_subset_of_mem_namedChildren {c : Node} (hc : c ∈ t.namedChildren) :
    c.tree.nodes ⊆ t.tree.nodes := by
  obtain ⟨u, hu, rfl⟩ := List.mem_map.mp (Node.mem_children_of_mem_namedChildren hc)
  exact Tree.nodes_subset_of_mem_children hu

/-- The ends are inside the target. -/
theorem frontier_within (h : ∀ u ∈ t.tree.nodes, u.IsLaidOut) :
    ∀ m ∈ frontier t, t.start ≤ m.start ∧ m.stop ≤ t.stop := by
  induction t using frontier.induct with
  | case1 t hk ih =>
    obtain ⟨hwithin, -⟩ := namedChildren_isLaidOut (h t.tree t.tree.mem_nodes_self)
    rw [frontier_eq, if_pos hk]
    intro m hm
    obtain ⟨c, hc, hm⟩ := List.mem_flatMap.mp hm
    obtain ⟨hstart, hstop⟩ :=
      ih c hc (fun u hu => h u (nodes_subset_of_mem_namedChildren hc hu)) m hm
    obtain ⟨hcstart, hcstop⟩ := hwithin c hc
    exact ⟨Nat.le_trans hcstart hstart, Nat.le_trans hstop hcstop⟩
  | case2 t hk =>
    rw [frontier_eq, if_neg hk]
    intro m hm
    rw [List.mem_singleton.mp hm]
    exact ⟨Nat.le_refl _, Nat.le_refl _⟩

/-- **The ends stand one after the other in the text.** -/
theorem frontier_sorted (h : ∀ u ∈ t.tree.nodes, u.IsLaidOut) :
    (frontier t).Pairwise fun a b => a.stop ≤ b.start := by
  induction t using frontier.induct with
  | case1 t hk ih =>
    obtain ⟨-, hsorted⟩ := namedChildren_isLaidOut (h t.tree t.tree.mem_nodes_self)
    have hbelow : ∀ c ∈ t.namedChildren, ∀ u ∈ c.tree.nodes, u.IsLaidOut := fun c hc u hu =>
      h u (nodes_subset_of_mem_namedChildren hc hu)
    rw [frontier_eq, if_pos hk, List.pairwise_flatMap]
    refine ⟨fun c hc => ih c hc (hbelow c hc), hsorted.imp_of_mem fun {a b} ha hb hab => ?_⟩
    intro m hm n hn
    have hm := (frontier_within (hbelow a ha) m hm).2
    have hn := (frontier_within (hbelow b hb) n hn).1
    exact Nat.le_trans hm (Nat.le_trans hab hn)
  | case2 t hk =>
    rw [frontier_eq, if_neg hk]
    exact List.pairwise_singleton _ _

/-! ## 3. Turn by turn -/

/-- What some ends bind and read, behind what was found before. -/
def foundAt (d : Document) (binding : Binding) (found : BindTargets) (ns : List Node) :
    BindTargets where
  names := found.names ++ ns.flatMap fun n => (bindOne d binding n).names
  reads := found.reads ++ ns.flatMap fun n => (bindOne d binding n).reads

theorem foundAt_nil (found : BindTargets) : foundAt d binding found [] = found := by
  simp [foundAt]

theorem foundAt_cons (found : BindTargets) (ns : List Node) :
    foundAt d binding found (n :: ns) = foundAt d binding (foundAt d binding found [n]) ns := by
  simp [foundAt]

/-- Adding a name adds what is bound if the node has a text. -/
theorem addName_eq (found : BindTargets) : addName d binding found n =
    { found with
      names := found.names ++ ((d.textOf? n).map (⟨·, d.line n, binding⟩)).toList } := by
  unfold addName Document.textOf?
  cases d.textOf n with
  | error e => simp [Except.toOption]
  | ok name => rfl

/-- A turn on a name adds what the name binds. -/
theorem addName_of_identifier (found : BindTargets) (h : n.kind = "identifier") :
    addName d binding found n = foundAt d binding found [n] := by
  rw [addName_eq]
  simp [foundAt, bindOne, h]

/-- A turn on an attribute of `self` adds a field. -/
theorem addName_of_selfAttribute (found : BindTargets) (hkind : n.kind = "attribute")
    (hself : isSelfAttribute d n = true) :
    addName d .field found n = foundAt d binding found [n] := by
  rw [addName_eq]
  simp [foundAt, bindOne, hkind, hself]

theorem bindOne_of_isForeign (h : IsForeign d n) : bindOne d binding n = { reads := [n] } := by
  obtain ⟨hname, hself⟩ := h
  simp [bindOne, hname, hself]

/-- A turn on any other node that is no container adds the node. -/
theorem addRead_of_isForeign (found : BindTargets) (h : IsForeign d n) :
    addRead found n = foundAt d binding found [n] := by
  simp [addRead, foundAt, bindOne_of_isForeign h]

/-- **A pile is taken apart into the ends of its nodes**, from the top on. -/
theorem takeApart_eq (found : BindTargets) (waiting : List Node) :
    takeApart d binding found waiting = foundAt d binding found (waiting.flatMap frontier) := by
  have hend : ∀ {n : Node}, isContainer n.kind = false → frontier n = [n] := by
    intro n hk
    rw [frontier_eq, hk, if_neg Bool.false_ne_true]
  induction found, waiting using takeApart.induct d binding with
  | case1 found => rw [takeApart, List.flatMap_nil, foundAt_nil]
  | case2 found n waiting hname ih =>
    have hkind := beq_iff_eq.mp hname
    rw [takeApart, if_pos hname, ih, addName_of_identifier found hkind, ← foundAt_cons,
      List.flatMap_cons, hend (by rw [hkind]; rfl), List.singleton_append]
  | case3 found n waiting hname hself ih =>
    obtain ⟨hkind, hobject⟩ := Bool.and_eq_true_iff.mp hself
    have hkind := beq_iff_eq.mp hkind
    rw [takeApart, if_neg hname, if_pos hself, ih, addName_of_selfAttribute found hkind hobject,
      ← foundAt_cons, List.flatMap_cons, hend (by rw [hkind]; rfl), List.singleton_append]
  | case4 found n waiting hname hself hk ih =>
    rw [takeApart, if_neg hname, if_neg hself, if_pos hk, ih, pile_reverse, List.flatMap_append,
      List.flatMap_cons, frontier_eq n, if_pos hk]
  | case5 found n waiting hname hself hk ih =>
    have hforeign : IsForeign d n := by
      simp only [Bool.and_eq_true, beq_iff_eq] at hname hself
      exact ⟨hname, hself⟩
    rw [takeApart, if_neg hname, if_neg hself, if_neg hk, ih, addRead_of_isForeign found hforeign,
      ← foundAt_cons, List.flatMap_cons, hend (Bool.not_eq_true _ ▸ hk), List.singleton_append]

theorem bindTargets_eq (t : Node) :
    bindTargets d t binding = foundAt d binding {} (frontier t) := by
  simp [bindTargets, foundAt, List.flatMap_map]

/-! ## 4. What is bound and what is read -/

instance (d : Document) (n : Node) : Decidable (IsForeign d n) :=
  inferInstanceAs (Decidable (_ ∧ _))

/-- An end is bound under its text, a name with the binding that is given and an attribute of `self`
as a field. -/
structure Binds (d : Document) (binding : Binding) (n : Node) (b : BoundName) : Prop where
  text : d.textOf n = .ok b.name
  line : b.line = d.line n
  binding : n.kind = "identifier" ∧ b.binding = binding ∨
    n.kind = "attribute" ∧ isSelfAttribute d n = true ∧ b.binding = .field

/-- Each of some ends is bound or left to be read, in their order. -/
structure IsPartition (d : Document) (binding : Binding) (ns : List Node) (found : BindTargets) :
    Prop where
  names : List.Forall₂ (Binds d binding) (ns.filter fun n => ¬ IsForeign d n) found.names
  reads : found.reads = ns.filter fun n => IsForeign d n

/-- What is not foreign is bound, if it has a text. -/
theorem exists_binds (binding : Binding) (h : ¬ IsForeign d n) (htext : ∃ s, d.textOf n = .ok s) :
    ∃ b, bindOne d binding n = { names := [b] } ∧ Binds d binding n b := by
  obtain ⟨s, hs⟩ := htext
  have hs' : d.textOf? n = some s := by rw [Document.textOf?, hs]; rfl
  by_cases hname : n.kind = "identifier"
  · exact ⟨⟨s, d.line n, binding⟩, by simp [bindOne, hname, hs'], hs, rfl, Or.inl ⟨hname, rfl⟩⟩
  · have hself : n.kind = "attribute" ∧ isSelfAttribute d n = true :=
      Classical.not_not.mp fun hself => h ⟨hname, hself⟩
    exact ⟨⟨s, d.line n, .field⟩, by simp [bindOne, hself, hs'], hs, rfl,
      Or.inr ⟨hself.1, hself.2, rfl⟩⟩

theorem isPartition_foundAt {ns : List Node} (h : ∀ n ∈ ns, ∃ s, d.textOf n = .ok s) :
    IsPartition d binding ns (foundAt d binding {} ns) := by
  induction ns with
  | nil => exact ⟨by simp [foundAt], by simp [foundAt]⟩
  | cons n ns ih =>
    obtain ⟨hn, hns⟩ := List.forall_mem_cons.mp h
    obtain ⟨hnames, hreads⟩ := ih hns
    simp only [foundAt, List.nil_append] at hnames hreads
    by_cases hforeign : IsForeign d n
    · constructor
      · simpa [foundAt, hforeign, bindOne_of_isForeign hforeign] using hnames
      · simpa [foundAt, hforeign, bindOne_of_isForeign hforeign] using hreads
    · obtain ⟨b, hb, hbinds⟩ := exists_binds binding hforeign hn
      constructor
      · simpa [foundAt, hforeign, hb] using List.Forall₂.cons hbinds hnames
      · simpa [foundAt, hforeign, hb] using hreads

/-- **Taking a target apart loses nothing and finds nothing twice**, if every node of the target is
a range of the text: there is one list of the ends of its containers in document order, and each end
is bound or left to be read, in this order. -/
theorem bindTargets_isPartition (d : Document) (t : Node) (binding : Binding)
    (hrange : ∀ n ∈ t.inside, (Text.slice d.text n.start n.stop).isSome = true) :
    takeApart d binding {} [t] = frontEnd.bindTargets d t binding ∧
      ∃ ps, IsFrontier t ps ∧
        IsPartition d binding (ps.map (·.node)) (frontEnd.bindTargets d t binding) ∧
        ((∀ u ∈ t.tree.nodes, u.IsLaidOut) →
          ps.Pairwise fun k l => k.node.stop ≤ l.node.start) := by
  have hbound : frontEnd.bindTargets d t binding = foundAt d binding {} (frontier t) :=
    bindTargets_eq t
  refine ⟨?_, ends t, isFrontier_ends t, ?_, fun hlaid => ?_⟩
  · rw [takeApart_eq, List.flatMap_singleton, hbound]
  · rw [map_node_ends, hbound]
    refine isPartition_foundAt fun n hn => ?_
    obtain ⟨s, hs⟩ := Option.isSome_iff_exists.mp (hrange n (mem_inside_of_mem_frontier hn))
    exact ⟨s, by rw [Document.textOf, hs]⟩
  · have hsorted := frontier_sorted hlaid
    rw [← map_node_ends] at hsorted
    exact List.pairwise_map.mp hsorted

/-- The target `(a, [self.b, c[0]]), *d`. -/
def nestedTarget : Document where
  language := .python
  text := "(a, [self.b, c[0]]), *d"
  tree := .node { id := 0, kind := "pattern_list", start := 0, stop := 23 }
    [.node { id := 1, kind := "tuple_pattern", start := 0, stop := 19 }
      [.node { id := 2, kind := "identifier", start := 1, stop := 2 } [],
       .node { id := 3, kind := "list_pattern", start := 4, stop := 18 }
        [.node { id := 4, kind := "attribute", start := 5, stop := 11 }
          [.node { id := 5, kind := "identifier", start := 5, stop := 9, field := "object" } [],
           .node { id := 6, kind := "identifier", start := 10, stop := 11,
                   field := "attribute" } []],
         .node { id := 7, kind := "subscript", start := 13, stop := 17 }
          [.node { id := 8, kind := "identifier", start := 13, stop := 14, field := "value" } [],
           .node { id := 9, kind := "integer", start := 15, stop := 16,
                   field := "subscript" } []]]],
     .node { id := 10, kind := "list_splat_pattern", start := 21, stop := 23 }
      [.node { id := 11, kind := "identifier", start := 22, stop := 23 } []]]

theorem bindTargets_isPartition_nestedTarget :
    (∀ n ∈ nestedTarget.root.inside,
      (Text.slice nestedTarget.text n.start n.stop).isSome = true) ∧
    ∃ ps, IsFrontier nestedTarget.root ps ∧
      IsPartition nestedTarget .localName (ps.map (·.node))
        (frontEnd.bindTargets nestedTarget nestedTarget.root .localName) ∧
      ps.Pairwise fun k l => k.node.stop ≤ l.node.start := by
  have hrange : ∀ n ∈ nestedTarget.root.inside,
      (Text.slice nestedTarget.text n.start n.stop).isSome = true := by decide +kernel
  obtain ⟨-, ps, hps, hpartition, hsorted⟩ :=
    bindTargets_isPartition nestedTarget nestedTarget.root .localName hrange
  exact ⟨hrange, ps, hps, hpartition, hsorted (by decide +kernel)⟩

end CodeDiagram.Python
