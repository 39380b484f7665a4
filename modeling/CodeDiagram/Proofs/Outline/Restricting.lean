/-
# Outlines to smaller depths

The depth limit of an outline only cuts off what lies below it.  The outline to a smaller limit is
the restriction of the one to a larger limit: its graph is the part of the other graph down to the
limit, with the nodes numbered anew (`Graph.restrict`), its diagnostics are those about the nodes of
that part, and its declarations are some of the declarations, in order.  Once nothing is cut off, a
larger limit changes nothing (`build_restricts`).

Both outlines are drawn of a listing of the same document (`build_eq_drawn`), and the listing to the
smaller limit is the part of the other that lies within the limit (`Listing.within`).  What is left
is to draw a part of a listing: the number of a node in the part is its rank among those that are
kept (`map_filter_flatten_mapIdx`).
-/
import CodeDiagram.Proofs.Outline.Collecting
import CodeDiagram.Proofs.Outline.Shape
import CodeDiagram.Syntax.Recorded

namespace CodeDiagram

open Syntax

/-! ## 1. The part of a graph within a depth -/

namespace Graph

/-- Whether a node lies within a depth. -/
def isWithin (g : Graph) (limit : Nat) (id : NodeId) : Bool := (g.depth? id).any (· ≤ limit)

/-- The nodes within a depth, in order. -/
def idsWithin (g : Graph) (limit : Nat) : List NodeId := g.ids.filter (g.isWithin limit)

/-- The number of a node among those within a depth. -/
def rank (g : Graph) (limit : Nat) (id : NodeId) : NodeId := (g.idsWithin limit).idxOf id

/-- The part of a graph within a depth: the nodes that lie there, numbered anew in their order, and
the edges between them. -/
def restrict (g : Graph) (limit : Nat) : Graph where
  nodes := (g.nodes.filter (g.isWithin limit ·.id)).map fun v => { v with id := g.rank limit v.id }
  edges := (g.edges.filter fun e => g.isWithin limit e.source && g.isWithin limit e.target).map
    fun e => { e with source := g.rank limit e.source, target := g.rank limit e.target }
  nextId := (g.idsWithin limit).length

end Graph

/-! ## 2. Parts of lists -/

section Parts

variable {α β : Type}

/-- The positions of the members of a list that have a property. -/
def positions (p : α → Bool) (l : List α) : List Nat :=
  (List.range l.length).filter fun i => l[i]?.any p

/-- The members with a property, each with its position. -/
theorem positions_eq (p : α → Bool) (l : List α) :
    positions p l = (l.zipIdx.filter (p ·.1)).map (·.2) := by
  have hrange : List.range l.length = l.zipIdx.map (·.2) := by
    rw [List.range_eq_range', ← List.zipIdx_map_snd]
  rw [positions, hrange, List.filter_map]
  refine congrArg (List.map Prod.snd) (List.filter_congr fun x hx => ?_)
  rw [Function.comp_apply, List.mem_zipIdx_iff_getElem?.mp hx]
  rfl

theorem nodup_positions (p : α → Bool) (l : List α) : (positions p l).Nodup :=
  List.nodup_range.filter _

/-- The members with a property stand in the part of the list at the ranks of their positions. -/
theorem getElem?_filter_idxOf {p : α → Bool} {l : List α} {i : Nat} {a : α} (ha : l[i]? = some a)
    (hp : p a = true) : (l.filter p)[(positions p l).idxOf i]? = some a := by
  have hpart : l.filter p = (l.zipIdx.filter (p ·.1)).map (·.1) := by
    conv_lhs => rw [← List.zipIdx_map_fst 0 l, List.filter_map]
    rfl
  have hmem : (a, i) ∈ l.zipIdx.filter (p ·.1) :=
    List.mem_filter.mpr ⟨List.mem_zipIdx_iff_getElem?.mpr ha, hp⟩
  obtain ⟨m, hm, heq⟩ := List.mem_iff_getElem.mp hmem
  have hlt : m < (positions p l).length := by
    rw [positions_eq, List.length_map]
    exact hm
  have hposition : (positions p l)[m] = i := by simp [positions_eq, heq]
  rw [← hposition, (nodup_positions p l).idxOf_getElem m hlt, hpart, List.getElem?_map,
    List.getElem?_eq_getElem hm, heq]
  rfl

/-- **What is kept of a list that is laid out by positions** is the part of the list, laid out by
the ranks of the positions. -/
theorem map_filter_flatten_mapIdx {p : α → Bool} {l : List α} {f g : Nat → α → List β}
    {q : β → Bool} {r : β → β}
    (h : ∀ i a, l[i]? = some a → ((f i a).filter q).map r =
      if p a then g ((positions p l).idxOf i) a else []) :
    ((l.mapIdx f).flatten.filter q).map r = ((l.filter p).mapIdx g).flatten := by
  have hall : ((l.mapIdx f).flatten.filter q).map r =
      (l.zipIdx.map fun x => if p x.1 then g ((positions p l).idxOf x.2) x.1 else []).flatten := by
    rw [List.filter_flatten, List.map_flatten, List.mapIdx_eq_zipIdx_map, List.map_map,
      List.map_map]
    refine congrArg List.flatten (List.map_congr_left fun x hx => ?_)
    exact h x.2 x.1 (List.mem_zipIdx_iff_getElem?.mp hx)
  have hkept : ∀ xs : List (α × Nat),
      (xs.map fun x => if p x.1 then g ((positions p l).idxOf x.2) x.1 else []).flatten =
        ((xs.filter (p ·.1)).map fun x => g ((positions p l).idxOf x.2) x.1).flatten := by
    intro xs
    induction xs with
    | nil => rfl
    | cons x xs ih =>
      rw [List.filter_cons]
      cases hx : p x.1 with
      | true => simp [hx, ih]
      | false => simp [hx, ih]
  rw [hall, hkept]
  conv_rhs => rw [← List.zipIdx_map_fst 0 l, List.filter_map]
  refine congrArg List.flatten (List.ext_getElem (by simp [Function.comp_def]) fun m hm hm' => ?_)
  simp only [List.length_map] at hm
  have hlt : m < (positions p l).length := by
    rw [positions_eq, List.length_map]
    exact hm
  have hrank : (positions p l).idxOf (l.zipIdx.filter (p ·.1))[m].2 = m := by
    have := (nodup_positions p l).idxOf_getElem m hlt
    simpa [positions_eq] using this
  simp [hrank, Function.comp_def]

end Parts

/-! ## 3. Listings to smaller depths -/

namespace Syntax.Listing

variable {root : Node} {limit small : Nat} {ps qs : List Place}

/-- There is one listing to a depth. -/
theorem unique (hp : Listing root limit ps) (hq : Listing root limit qs) : ps = qs := by
  have hperm : ps.Perm qs := (List.perm_ext_iff_of_nodup hp.nodup.of_map hq.nodup.of_map).mpr
    fun k => (hp.mem_iff k).trans (hq.mem_iff k).symm
  refine hperm.eq_of_pairwise (fun k l _ _ hkl hlk => ?_) (List.pairwise_map.mp hp.sorted)
    (List.pairwise_map.mp hq.sorted)
  exact absurd (List.lt_trans hkl hlk) (List.lt_irrefl k.path)

/-- Whether a place lies within a depth. -/
def isWithin (limit : Nat) (k : Place) : Bool := k.path.length ≤ limit

/-- The part of a listing within a smaller depth lists the nodes to that depth. -/
theorem within (h : Listing root limit ps) (hle : small ≤ limit) :
    Listing root small (ps.filter (isWithin small)) where
  mem_iff k := by
    rw [List.mem_filter, h.mem_iff, isWithin, decide_eq_true_eq]
    constructor
    · rintro ⟨⟨-, hk⟩, hsmall⟩
      exact ⟨hsmall, hk⟩
    · rintro ⟨hsmall, hk⟩
      exact ⟨⟨Nat.le_trans hsmall hle, hk⟩, hsmall⟩
  sorted := h.sorted.sublist (List.filter_sublist.map _)

end Syntax.Listing

/-! ## 4. Drawing a part of a listing -/

namespace Outline

variable {fe : FrontEnd} {limit small labelLength : Nat} {d : Document} {ps : List Place}

open Listing (isWithin)

/-- A node lies within a depth if its place does. -/
theorem isWithin_graphOf (h : Listing d.root limit ps) (hs : (graphOf fe labelLength d ps).Sound)
    (i : Nat) : (graphOf fe labelLength d ps).isWithin small i = ps[i]?.any (isWithin small) := by
  rw [Graph.isWithin, depth?_graphOf h.rooted hs, Option.any_map]
  rfl

/-- The nodes within a depth are those at the positions of the places that lie there. -/
theorem idsWithin_graphOf (h : Listing d.root limit ps) (hs : (graphOf fe labelLength d ps).Sound) :
    (graphOf fe labelLength d ps).idsWithin small = positions (isWithin small) ps := by
  rw [Graph.idsWithin, ids_graphOf, positions]
  exact List.filter_congr fun i _ => isWithin_graphOf h hs i

/-- What is noted of the places within a depth, and of no others, is about nodes that are kept. -/
theorem diagnostics_drawn_within (h : Listing d.root limit ps)
    (hs : (graphOf fe labelLength d ps).Sound) :
    (drawn fe small labelLength d (ps.filter (isWithin small))).diagnostics =
      ((drawn fe limit labelLength d ps).diagnostics.filter
        ((graphOf fe labelLength d ps).isWithin small ·.node)).map fun x =>
          { x with node := (graphOf fe labelLength d ps).rank small x.node } := by
  refine (map_filter_flatten_mapIdx fun i k hk => ?_).symm
  have hall : ∀ x ∈ notesAt fe d i k,
      (graphOf fe labelLength d ps).isWithin small x.node = isWithin small k := by
    intro x hx
    obtain ⟨f, -, rfl⟩ := List.mem_map.mp hx
    rw [isWithin_graphOf h hs, hk]
    rfl
  rw [List.filter_congr hall]
  cases isWithin small k with
  | false => simp
  | true => simp [notesAt, Graph.rank, idsWithin_graphOf h hs]

/-- A place within a depth hangs from a place within that depth. -/
theorem parentIn_within (h : Listing d.root limit ps) (hle : small ≤ limit) {k : Place}
    (hk : k ∈ ps) (hsmall : isWithin small k = true) :
    (∀ j ∈ parentIn ps k.path, ps[j]?.any (isWithin small) = true) ∧
      parentIn (ps.filter (isWithin small)) k.path =
        (parentIn ps k.path).map ((positions (isWithin small) ps).idxOf ·) := by
  have hlength : k.path.length ≤ small := of_decide_eq_true hsmall
  cases hp : parentIn ps k.path with
  | none =>
    have hroot : k.path = [] := by
      by_contra hne
      rw [parentIn, if_neg hne] at hp
      cases hp
    exact ⟨by simp, by rw [parentIn, if_pos hroot]; rfl⟩
  | some j =>
    obtain ⟨m, a, hm, hpath⟩ := (parentIn_eq_some_iff h.rooted hk).mp hp
    have hup : isWithin small m = true := by
      rw [hpath, List.length_append] at hlength
      exact decide_eq_true (Nat.le_of_succ_le hlength)
    refine ⟨fun i hi => ?_, ?_⟩
    · rw [← Option.some.inj hi, hm]
      exact hup
    · exact (parentIn_eq_some_iff (h.within hle).rooted (List.mem_filter.mpr ⟨hk, hsmall⟩)).mpr
        ⟨m, a, getElem?_filter_idxOf hm hup, hpath⟩

/-- **The graph of the places within a depth** is the part of the graph within that depth. -/
theorem graphOf_within (h : Listing d.root limit ps) (hs : (graphOf fe labelLength d ps).Sound)
    (hle : small ≤ limit) :
    graphOf fe labelLength d (ps.filter (isWithin small)) =
      (graphOf fe labelLength d ps).restrict small := by
  have hwithin : ∀ {i k}, ps[i]? = some k →
      (graphOf fe labelLength d ps).isWithin small i = isWithin small k := by
    intro i k hk
    rw [isWithin_graphOf h hs, hk]
    rfl
  have hrank : ∀ i, (graphOf fe labelLength d ps).rank small i =
      (positions (isWithin small) ps).idxOf i := by
    intro i
    rw [Graph.rank, idsWithin_graphOf h hs]
  refine Graph.ext ?_ ?_ ?_
  · -- one node for each place
    have hnodes : ∀ qs : List Place, (graphOf fe labelLength d qs).nodes =
        (qs.mapIdx fun i k => [vertexAt fe labelLength d i k]).flatten := by
      intro qs
      refine (List.flatMap_singleton' _).symm.trans (congrArg List.flatten ?_)
      exact List.ext_getElem (by simp [graphOf]) fun i _ _ => by simp [graphOf]
    rw [hnodes, Graph.restrict, hnodes]
    refine (map_filter_flatten_mapIdx fun i k hk => ?_).symm
    rw [List.filter_singleton, vertexAt_id, hwithin hk]
    cases isWithin small k with
    | false => rfl
    | true => exact congrArg (fun id => [{ vertexAt fe labelLength d i k with id }]) (hrank i)
  · -- at most one edge for each place, from the place that it is in
    refine (map_filter_flatten_mapIdx fun i k hk => ?_).symm
    cases hsmall : isWithin small k with
    | false =>
      have hnone : ∀ e ∈ edgesAt ps i k, ¬ ((graphOf fe labelLength d ps).isWithin small e.source &&
          (graphOf fe labelLength d ps).isWithin small e.target) = true := by
        intro e he
        obtain ⟨j, -, rfl⟩ := List.mem_map.mp he
        simp [hwithin hk, hsmall]
      rw [List.filter_eq_nil_iff.mpr hnone]
      rfl
    | true =>
      obtain ⟨hup, hparent⟩ := parentIn_within h hle (List.mem_of_getElem? hk) hsmall
      have hall : ∀ e ∈ edgesAt ps i k, ((graphOf fe labelLength d ps).isWithin small e.source &&
          (graphOf fe labelLength d ps).isWithin small e.target) = true := by
        intro e he
        obtain ⟨j, hj, rfl⟩ := List.mem_map.mp he
        rw [isWithin_graphOf h hs, hup j (Option.mem_toList.mp hj), hwithin hk, hsmall]
        rfl
      rw [List.filter_eq_self.mpr hall, if_pos rfl, edgesAt, edgesAt, hparent, List.map_map,
        ← hrank i]
      cases parentIn ps k.path with
      | none => rfl
      | some j => simp [hrank]
  · have hlength : ((graphOf fe labelLength d ps).idsWithin small).length =
        (ps.filter (isWithin small)).length := by
      rw [idsWithin_graphOf h hs, positions_eq, List.length_map]
      conv_rhs => rw [← List.zipIdx_map_fst 0 ps, List.filter_map, List.length_map]
      rfl
    exact hlength.symm

/-- **Where nothing was cut off** a larger limit changes nothing. -/
theorem drawn_within_of_uncut (h : Listing d.root limit ps) (hle : small ≤ limit)
    (huncut : (drawn fe small labelLength d (ps.filter (isWithin small))).isCut = false) :
    drawn fe small labelLength d (ps.filter (isWithin small)) =
      drawn fe limit labelLength d ps := by
  have hleaf : ∀ k ∈ ps.filter (isWithin small), k.path.length = small →
      k.node.namedChildren = [] := by
    intro k hk hlength
    by_contra hne
    rw [(isCut_drawn fe labelLength (h.within hle)).mpr ⟨k, hk, hlength, hne⟩] at huncut
    cases huncut
  have hall : ps.filter (isWithin small) = ps := by
    refine List.filter_eq_self.mpr fun k hk => ?_
    exact (List.mem_filter.mp ((h.within hle).mem_of_uncut hleaf (h.at? hk))).2
  have hlarge : (drawn fe limit labelLength d ps).isCut = false := by
    rw [Bool.eq_false_iff]
    intro hcut
    obtain ⟨k, hk, hlength, hne⟩ := (isCut_drawn fe labelLength h).mp hcut
    rw [← hall] at hk
    -- a place at the larger limit is one at the smaller
    have hsmall : k.path.length ≤ small := of_decide_eq_true (List.mem_filter.mp hk).2
    exact hne (hleaf k hk (Nat.le_antisymm hsmall (hlength ▸ hle)))
  have hsame : drawn fe small labelLength d (ps.filter (isWithin small)) =
      { drawn fe limit labelLength d ps with
        isCut := (drawn fe small labelLength d (ps.filter (isWithin small))).isCut } := by
    rw [hall]
    rfl
  rw [hsame, huncut, ← hlarge]

/-- The declarations of the places within a depth are among those of all places. -/
theorem declarations_drawn_within (fe : FrontEnd) (small limit labelLength : Nat) (d : Document)
    (ps : List Place) :
    let part := (drawn fe small labelLength d (ps.filter (isWithin small))).declarations
    let whole := (drawn fe limit labelLength d ps).declarations
    part.functions.Sublist whole.functions ∧ part.classes.Sublist whole.classes ∧
      part.bindings.Sublist whole.bindings ∧ part.imports.Sublist whole.imports := by
  intro part whole
  have hpart := (drawn_isMadeOf fe small labelLength d (ps.filter (isWithin small))).declarations
  have hwhole := (drawn_isMadeOf fe limit labelLength d ps).declarations
  have hsub : ((ps.filter (isWithin small)).map (·.node)).Sublist (ps.map (·.node)) :=
    List.filter_sublist.map _
  subst part whole
  rw [hpart, hwhole]
  exact ⟨hsub.flatMap _, hsub.flatMap _, hsub.flatMap _, hsub.flatMap _⟩

/-- An outline to a smaller depth is drawn of the places that lie there. -/
theorem build_within (fe : FrontEnd) {small limit : Nat} (labelLength : Nat) {d : Document}
    (hd : d.tree.ids.Nodup) (hle : small ≤ limit) :
    ∃ ps, Listing d.root limit ps ∧ (graphOf fe labelLength d ps).Sound ∧
      build fe limit labelLength d = drawn fe limit labelLength d ps ∧
      build fe small labelLength d = drawn fe small labelLength d (ps.filter (isWithin small)) := by
  have hroot := hd.sublist d.root_ids_sublist
  obtain ⟨ps, h, hs, hbuild⟩ := build_eq_drawn fe limit labelLength hroot
  obtain ⟨qs, hq, -, hsmall⟩ := build_eq_drawn fe small labelLength hroot
  obtain rfl : qs = ps.filter (isWithin small) := hq.unique (h.within hle)
  exact ⟨ps, h, hs, hbuild, hsmall⟩

/-! ## 5. Two outlines of a document -/

/-- An outline is the part of another one within a depth. -/
structure IsPartOf (part : Outline) (limit : Nat) (whole : Outline) : Prop where
  /-- The nodes within the depth are shown as in the whole, in their order, and hang together. -/
  graph : part.graph = whole.graph.restrict limit
  functions : part.metadata.functions.Sublist whole.metadata.functions
  classes : part.metadata.classes.Sublist whole.metadata.classes
  bindings : part.metadata.bindings.Sublist whole.metadata.bindings
  imports : part.metadata.imports.Sublist whole.metadata.imports
  /-- The diagnostics are those about the nodes within the depth. -/
  diagnostics : part.diagnostics = (whole.diagnostics.filter
    (whole.graph.isWithin limit ·.node)).map fun x =>
      { x with node := whole.graph.rank limit x.node }
  /-- If nothing was cut off, the part is the whole. -/
  whole : part.metadata.maxDepthReached = false → part = whole

/-- **An outline to a smaller depth is the part of the larger one within that depth.** -/
theorem build_restricts (fe : FrontEnd) {small limit : Nat} (labelLength : Nat) (d : Document)
    (hd : d.tree.ids.Nodup) (hle : small ≤ limit) :
    (build fe small labelLength d).IsPartOf small (build fe limit labelLength d) := by
  obtain ⟨ps, h, hs, hbuild, hsmall⟩ := build_within fe labelLength hd hle
  obtain ⟨hfunctions, hclasses, hbindings, himports⟩ :=
    declarations_drawn_within fe small limit labelLength d ps
  rw [hbuild, hsmall]
  exact ⟨graphOf_within h hs hle, hfunctions, hclasses, hbindings, himports,
    diagnostics_drawn_within h hs, drawn_within_of_uncut h hle⟩

/-- The text of a class with a method, in which a call has no name. -/
def classOfCalls : Document where
  language := .python
  text := "class A:\n  def f(x):\n    g()()"
  tree := (Tree.ofRecords? [
    ⟨0, "module", 0, 0, 30, none⟩, ⟨1, "class_definition", 0, 0, 30, none⟩,
    ⟨2, "class", 1, 0, 5, none⟩, ⟨2, "identifier", 0, 6, 7, "name"⟩, ⟨2, ":", 1, 7, 8, none⟩,
    ⟨2, "block", 0, 11, 30, "body"⟩, ⟨3, "function_definition", 0, 11, 30, none⟩,
    ⟨4, "def", 1, 11, 14, none⟩, ⟨4, "identifier", 0, 15, 16, "name"⟩,
    ⟨4, "parameters", 0, 16, 19, "parameters"⟩, ⟨5, "(", 1, 16, 17, none⟩,
    ⟨5, "identifier", 0, 17, 18, none⟩, ⟨5, ")", 1, 18, 19, none⟩, ⟨4, ":", 1, 19, 20, none⟩,
    ⟨4, "block", 0, 25, 30, "body"⟩, ⟨5, "expression_statement", 0, 25, 30, none⟩,
    ⟨6, "call", 0, 25, 30, none⟩, ⟨7, "call", 0, 25, 28, "function"⟩,
    ⟨8, "identifier", 0, 25, 26, "function"⟩, ⟨8, "argument_list", 0, 26, 28, "arguments"⟩,
    ⟨9, "(", 1, 26, 27, none⟩, ⟨9, ")", 1, 27, 28, none⟩,
    ⟨7, "argument_list", 0, 28, 30, "arguments"⟩, ⟨8, "(", 1, 28, 29, none⟩,
    ⟨8, ")", 1, 29, 30, none⟩]).getD default

/-- To a depth of three the calls are cut off, but not the method. -/
theorem build_restricts_classOfCalls :
    classOfCalls.tree.ids.Nodup ∧ 3 ≤ 10 ∧
      (build Python.frontEnd 3 30 classOfCalls).IsPartOf 3
        (build Python.frontEnd 10 30 classOfCalls) ∧
      (build Python.frontEnd 3 30 classOfCalls).graph.nodeCount = 5 ∧
      (build Python.frontEnd 10 30 classOfCalls).graph.nodeCount = 15 :=
  ⟨by decide +kernel, by decide, build_restricts _ _ _ (by decide +kernel) (by decide),
    by decide +kernel, by decide +kernel⟩

end Outline

end CodeDiagram
