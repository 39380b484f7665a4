/-
# Statistics and diagrams of one text

The statistics of a text count functions and types in one walk through its tree.  Its outline is
built by another walk, which works off a list and stops at the depth limit.  The two see the same
nodes (`codeStats_agrees`): the outline never has more functions or types than were counted, and it
has as many if nothing is cut off.

The order of the walk does not change the numbers, so that counting in turns, where the last of some
children comes first, is counting by recursion (`CodeStats.countInTurns_eq`).

The invariant is `Outline.Progress`: what is placed and what is inside the places that wait is
counted, at every step, as the whole tree is (`Progress.exists_listing_countP`).
-/
import CodeDiagram.Proofs.Outline.Restricting
import CodeDiagram.Proofs.Pipeline.Runs

namespace CodeDiagram

open Syntax

/-! ## 1. Counting -/

/-- The number of named nodes of a class at and below some nodes. -/
def Syntax.Node.countNamed (p : String → Bool) : List Node → Nat
  | [] => 0
  | n :: ns => n.tree.countNamed p + countNamed p ns

namespace Syntax.Node

variable (p : String → Bool)

theorem countNamed_append (ns ms : List Node) :
    countNamed p (ns ++ ms) = countNamed p ns + countNamed p ms := by
  induction ns with
  | nil => exact (Nat.zero_add _).symm
  | cons n ns ih => rw [List.cons_append, countNamed, ih, countNamed, Nat.add_assoc]

theorem countNamed_reverse (ns : List Node) : countNamed p ns.reverse = countNamed p ns := by
  induction ns with
  | nil => rfl
  | cons n ns ih =>
    rw [List.reverse_cons, countNamed_append, ih, countNamed, countNamed, countNamed, Nat.add_zero,
      Nat.add_comm]

/-- A node counts itself and what its named children count. -/
theorem countNamed_tree (n : Node) :
    n.tree.countNamed p = [n].countP (p ·.kind) + countNamed p n.namedChildren := by
  have hamong : ∀ (up : Option Tree) (ts : List Tree), Tree.countNamedAmong p ts =
      countNamed p ((ts.map fun t => (⟨t, up⟩ : Node)).filter (·.isNamed)) := by
    intro up ts
    induction ts with
    | nil => rfl
    | cons t ts ih =>
      rw [Tree.countNamedAmong, ih, List.map_cons, List.filter_cons, isNamed]
      cases t.info.named with
      | false => exact Nat.zero_add _
      | true => rfl
  obtain ⟨⟨info, children⟩, up⟩ := n
  rw [Tree.countNamed, hamong (some (.node info children)), List.countP_singleton]
  rfl

end Syntax.Node

namespace CodeStats

/-- No kind is that of a function and of a type. -/
theorem count_eq (stats : CodeStats) (kind : NodeKind) : stats.count kind =
    { stats with
      functions := stats.functions + if kind.isFunction then 1 else 0
      classes := stats.classes + if kind.isType then 1 else 0 } := by
  cases kind <;> rfl

/-- **A pile is counted as its nodes are**, in whatever order they come. -/
theorem countInTurns_eq (fe : FrontEnd) (stats : CodeStats) (waiting : List Node) :
    countInTurns fe stats waiting =
      { stats with
        functions := stats.functions +
          Node.countNamed (fun kind => (fe.classify kind).isFunction) waiting
        classes := stats.classes +
          Node.countNamed (fun kind => (fe.classify kind).isType) waiting } := by
  induction stats, waiting using countInTurns.induct fe with
  | case1 stats =>
    rw [countInTurns]
    rfl
  | case2 stats n waiting ih =>
    -- a turn counts the node and puts on the pile what the recursion goes on with
    rw [countInTurns, ih, count_eq, pile_eq_append, Node.countNamed_append, Node.countNamed_append,
      Node.countNamed_reverse, Node.countNamed_reverse]
    simp only [Node.countNamed, Node.countNamed_tree, List.countP_singleton, Nat.add_assoc]

/-- The statistics of a text that is read are those that counting in turns comes to. -/
theorem collect_eq_countInTurns {fe : FrontEnd} {grammar : Grammar} {source : String} {d : Document}
    (h : fe.parse grammar source = .ok d) :
    collect fe grammar source = (size source).countInTurns fe [d.root] := by
  rw [collect, h, countInTurns_eq, size]
  simp only [Node.countNamed, Nat.zero_add, Nat.add_zero]

end CodeStats

/-! ## 2. Outlines -/

namespace Outline

variable {limit : Nat}

/-- The places drawn so far and those that wait are, together with what is inside the latter, the
places of a document down to the limit. -/
structure Progress (root : Node) (limit : Nat) (placed waiting : List Place) : Prop
    extends InOrder root limit placed waiting where
  covered : ∀ p, p.length ≤ limit → (root.at? p).isSome →
    (∃ k ∈ placed, k.path = p) ∨ ∃ k ∈ waiting, k.path <+: p

namespace Progress

variable {root : Node} {placed waiting : List Place}

/-- At first the root waits. -/
theorem start (root : Node) (limit : Nat) : Progress root limit [] [⟨[], root⟩] where
  toInOrder := .start root limit
  covered := by
    intro p _ _
    exact Or.inr ⟨⟨[], root⟩, List.mem_cons_self, List.nil_prefix⟩

/-- In the end every place is drawn. -/
theorem listing (h : Progress root limit placed []) : Listing root limit placed where
  mem_iff := by
    intro k
    constructor
    · exact fun hk => h.within k (by simpa using hk)
    · rintro ⟨hlen, hat⟩
      obtain ⟨path, node⟩ := k
      rcases h.covered path hlen (by rw [hat]; rfl) with ⟨⟨q, m⟩, hl, rfl⟩ | ⟨l, hl, -⟩
      · have hlat := (h.within ⟨q, m⟩ (by simpa using hl)).2
        rw [hat, Option.some.injEq] at hlat
        rwa [show node = m from hlat]
      · cases hl
  sorted := by
    have := h.sorted
    rw [List.append_nil] at this
    exact List.pairwise_map.mpr this

/-- **A step draws the first place that waits; those inside it wait in front of the others.** -/
theorem step {k : Place} (h : Progress root limit placed (k :: waiting)) :
    Progress root limit (placed ++ [k]) (placesInside limit k ++ waiting) where
  toInOrder := h.toInOrder.step
  covered := by
    intro p hlen hat
    rcases h.covered p hlen hat with ⟨l, hl, hp⟩ | ⟨l, hl, hp⟩
    · exact Or.inl ⟨l, by simp [hl], hp⟩
    · rcases List.mem_cons.mp hl with rfl | hl
      · obtain ⟨q, rfl⟩ := hp
        cases q with
        | nil => exact Or.inl ⟨l, by simp, by simp⟩
        | cons i q =>
          -- the path goes on into a child, and that child waits now
          have hpre : l.path ++ [i] <+: l.path ++ i :: q := ⟨q, by simp⟩
          have hsome := Node.at?_isSome_of_prefix hpre hat
          obtain ⟨c, hc⟩ := Option.isSome_iff_exists.mp hsome
          rw [Node.at?_concat (h.within l (by simp)).2] at hc
          have hshort : l.path.length < limit := by
            rw [List.length_append, List.length_cons] at hlen
            omega
          exact Or.inr ⟨⟨l.path ++ [i], c⟩,
            List.mem_append_left _ (mem_placesInside.mpr ⟨hshort, i, rfl, hc⟩), hpre⟩
      · exact Or.inr ⟨l, List.mem_append_right _ hl, hp⟩

end Progress

theorem map_node_placesInside (limit : Nat) (k : Place) :
    (placesInside limit k).map (·.node) =
      if k.path.length < limit then k.node.namedChildren else [] := by
  unfold placesInside
  split
  · exact List.ext_getElem (by simp) fun i _ _ => by simp
  · rfl

/-- **A step counts what it places**: the place that waited counts itself and what is inside it, and
what is inside waits now, unless the limit cuts it off. -/
theorem countNamed_placesInside (p : String → Bool) (limit : Nat) (k : Place) :
    [k].countP (p ·.node.kind) + Node.countNamed p ((placesInside limit k).map (·.node)) ≤
        k.node.tree.countNamed p ∧
      (k.path.length < limit ∨ k.node.namedChildren = [] →
        [k].countP (p ·.node.kind) + Node.countNamed p ((placesInside limit k).map (·.node)) =
          k.node.tree.countNamed p) := by
  have hself : [k].countP (p ·.node.kind) = [k.node].countP (p ·.kind) := by
    rw [List.countP_singleton, List.countP_singleton]
  rw [hself, Node.countNamed_tree, map_node_placesInside]
  split
  · exact ⟨Nat.le_refl _, fun _ => rfl⟩
  · rename_i hlimit
    refine ⟨Nat.add_le_add_left (Nat.zero_le _) _, fun h => ?_⟩
    rw [h.resolve_left hlimit]

/-- **The run**: the listing that comes of some progress has at most as many nodes of a class as
were placed and wait, and as many if the limit cuts nothing off. -/
theorem Progress.exists_listing_countP (p : String → Bool) {root : Node}
    {placed waiting : List Place} (h : Progress root limit placed waiting) :
    ∃ ps, Listing root limit ps ∧ placed <+: ps ∧
      ps.countP (p ·.node.kind) ≤
        placed.countP (p ·.node.kind) + Node.countNamed p (waiting.map (·.node)) ∧
      ((∀ k ∈ ps, k.path.length = limit → k.node.namedChildren = []) →
        ps.countP (p ·.node.kind) =
          placed.countP (p ·.node.kind) + Node.countNamed p (waiting.map (·.node))) := by
  -- what waits gets smaller: a place gives way to the places inside it
  induction hn : Node.sizes (waiting.map (·.node)) using Nat.strongRecOn
    generalizing placed waiting with
  | ind n ih =>
    cases waiting with
    | nil => exact ⟨placed, h.listing, List.prefix_refl _, Nat.le_refl _, fun _ => rfl⟩
    | cons k waiting =>
      have hless : Node.sizes ((placesInside limit k ++ waiting).map (·.node)) < n := by
        have hlt := k.node.sizes_namedChildren_lt
        rw [← hn, List.map_append, Node.sizes_append, map_node_placesInside, List.map_cons,
          Node.sizes]
        split
        · omega
        · rw [Node.sizes]
          omega
      obtain ⟨ps, hps, hprefix, hle, heq⟩ := ih _ hless h.step rfl
      obtain ⟨hstep, hwhole⟩ := countNamed_placesInside p limit k
      have hk : k ∈ ps := hprefix.subset (by simp)
      rw [List.countP_append, List.map_append, Node.countNamed_append] at hle heq
      rw [List.map_cons, Node.countNamed]
      refine ⟨ps, hps, (List.prefix_append placed [k]).trans hprefix, by omega, fun huncut => ?_⟩
      -- the limit did not cut this place off, for it is listed
      have hopen : k.path.length < limit ∨ k.node.namedChildren = [] := by
        rcases Nat.lt_or_eq_of_le ((hps.mem_iff k).mp hk).1 with hlt | hlast
        · exact Or.inl hlt
        · exact Or.inr (huncut k hk hlast)
      rw [heq huncut, ← hwhole hopen]
      omega

/-- The nodes of an outline are of the kinds of the nodes that it is made of. -/
theorem IsMadeOf.countP_nodes {fe : FrontEnd} {labelLength : Nat} {d : Document} {ns : List Node}
    {o : Outline} (h : IsMadeOf fe labelLength d ns o) (q : NodeKind → Bool) :
    o.graph.nodes.countP (q ·.kind) = ns.countP fun n => q (fe.classify n.kind) := by
  rw [h.nodes, List.mapIdx_eq_zipIdx_map, List.countP_map]
  conv_rhs => rw [← List.zipIdx_map_fst 0 ns, List.countP_map]
  rfl

/-- **An outline has at most the nodes that are counted** of any sort, and all of them if nothing is
cut off. -/
theorem countP_nodes_build (fe : FrontEnd) (limit labelLength : Nat) {d : Document}
    (hd : d.tree.ids.Nodup) (q : NodeKind → Bool) :
    (build fe limit labelLength d).graph.nodes.countP (q ·.kind) ≤
        d.root.tree.countNamed (fun kind => q (fe.classify kind)) ∧
      ((build fe limit labelLength d).isCut = false →
        (build fe limit labelLength d).graph.nodes.countP (q ·.kind) =
          d.root.tree.countNamed fun kind => q (fe.classify kind)) := by
  obtain ⟨ps, hps, -, hbuild⟩ :=
    build_eq_drawn fe limit labelLength (hd.sublist d.root_ids_sublist)
  obtain ⟨qs, hqs, -, hle, heq⟩ := (Progress.start d.root limit).exists_listing_countP
    fun kind => q (fe.classify kind)
  obtain rfl : qs = ps := hqs.unique hps
  rw [hbuild, (drawn_isMadeOf fe limit labelLength d qs).countP_nodes q, List.countP_map]
  simp only [List.countP_nil, List.map_cons, List.map_nil, Node.countNamed, Nat.zero_add,
    Nat.add_zero] at hle heq
  refine ⟨hle, fun huncut => heq fun k hk hlength => ?_⟩
  by_contra hne
  rw [(isCut_drawn fe labelLength hps).mpr ⟨k, hk, hlength, hne⟩] at huncut
  cases huncut

end Outline

/-! ## 3. Answers -/

namespace Pipeline

/-- The statistics of a text agree with an answer to a request for it. -/
structure Agrees (stats : CodeStats) (v : Visualization) : Prop where
  parseError : stats.parseError = v.metadata.parseError
  /-- A text that cannot be read declares nothing. -/
  unread : stats.parseError.isSome → stats.functions = 0 ∧ stats.classes = 0
  /-- No outline has more functions or types than are counted. -/
  atMost : v.diagram = .outline →
    v.graph.nodes.countP (·.kind.isFunction) ≤ stats.functions ∧
      v.graph.nodes.countP (·.kind.isType) ≤ stats.classes
  /-- An outline that is not cut off has as many. -/
  whole : v.diagram = .outline → v.metadata.maxDepthReached = false →
    v.graph.nodes.countP (·.kind.isFunction) = stats.functions ∧
      v.graph.nodes.countP (·.kind.isType) = stats.classes

/-- **The statistics of a text agree with every diagram of it**, to any depth.  They are what comes
of counting in turns, from the root on. -/
theorem codeStats_agrees (p : Pipeline) (source : String) (language : Language) {fe : FrontEnd}
    (hfind : p.registry.find language = .ok fe)
    (hids : ∀ d, fe.parse (p.grammar language) source = .ok d → d.tree.ids.Nodup) :
    ∃ stats, p.codeStats source language = .ok stats ∧
      (∀ d, fe.parse (p.grammar language) source = .ok d →
        stats = (CodeStats.size source).countInTurns fe [d.root]) ∧
      ∀ diagram maxDepth expired, ∃ v,
        p.run ⟨source, language, diagram, maxDepth, expired⟩ = .ok v ∧ Agrees stats v := by
  have hstats : p.codeStats source language =
      .ok (CodeStats.collect fe (p.grammar language) source) := by
    rw [codeStats, hfind]
    rfl
  refine ⟨_, hstats, fun _ => CodeStats.collect_eq_countInTurns,
    fun diagram maxDepth expired => ?_⟩
  obtain ⟨v, hv, hdrawn⟩ := run_of_find p ⟨source, language, diagram, maxDepth, expired⟩ hfind
  refine ⟨v, hv, ?_⟩
  cases hparse : fe.parse (p.grammar language) source with
  | error e =>
    rw [drawing_of_error p _ hparse] at hdrawn
    obtain ⟨hgraph, hrest⟩ := Prod.mk.inj hdrawn
    rw [CodeStats.collect, hparse]
    exact {
      parseError := by rw [(Prod.mk.inj hrest).1]; rfl
      unread := fun _ => ⟨rfl, rfl⟩
      atMost := fun _ => by rw [hgraph]; exact ⟨Nat.le_refl 0, Nat.le_refl 0⟩
      whole := fun _ _ => by rw [hgraph]; exact ⟨rfl, rfl⟩ }
  | ok d =>
    rw [drawing_of_ok p _ hparse, ← (fields_of_run hv).1] at hdrawn
    obtain ⟨hgraph, hrest⟩ := Prod.mk.inj hdrawn
    obtain ⟨hmetadata, -⟩ := Prod.mk.inj hrest
    have hcount (q : NodeKind → Bool) := Outline.countP_nodes_build fe
      (maxDepth.getD p.settings.pipeline.maxDepth) p.settings.pipeline.maxLabelLength
      (hids d hparse) q
    rw [CodeStats.collect, hparse]
    exact {
      parseError := by rw [hmetadata]; rfl
      unread := fun h => by cases h
      atMost := fun houtline => by
        rw [hgraph, houtline]
        exact ⟨(hcount (·.isFunction)).1, (hcount (·.isType)).1⟩
      whole := fun houtline huncut => by
        rw [hmetadata] at huncut
        rw [hgraph, houtline]
        exact ⟨(hcount (·.isFunction)).2 huncut, (hcount (·.isType)).2 huncut⟩ }

/-- A class and its method are counted, and at the usual depth nothing of the outline is cut off. -/
theorem codeStats_agrees_classOfCalls :
    ∃ stats v, (knowing Outline.classOfCalls).codeStats Outline.classOfCalls.text .python =
        .ok stats ∧
      (knowing Outline.classOfCalls).run ⟨Outline.classOfCalls.text, .python, .outline, none,
        false⟩ = .ok v ∧
      Agrees stats v ∧ (stats.functions, stats.classes) = (1, 1) ∧
      v.metadata.maxDepthReached = false := by
  have hread : (Python.frontEnd.parse ((knowing Outline.classOfCalls).grammar .python)
      Outline.classOfCalls.text).toOption.map (·.tree.ids) = some (List.range 25) := by
    decide +kernel
  have hcounted : ((knowing Outline.classOfCalls).codeStats Outline.classOfCalls.text
      .python).toOption.map (fun s => (s.functions, s.classes)) = some (1, 1) := by
    decide +kernel
  have hshown : ((knowing Outline.classOfCalls).run ⟨Outline.classOfCalls.text, .python, .outline,
      none, false⟩).toOption.map (·.metadata.maxDepthReached) = some false := by
    decide +kernel
  have hids : ∀ d, Python.frontEnd.parse ((knowing Outline.classOfCalls).grammar .python)
      Outline.classOfCalls.text = .ok d → d.tree.ids.Nodup := by
    intro d hd
    rw [hd] at hread
    have htree : d.tree.ids = List.range 25 := Option.some.inj hread
    rw [htree]
    exact List.nodup_range
  obtain ⟨stats, hstats, -, hall⟩ :=
    codeStats_agrees (knowing Outline.classOfCalls) Outline.classOfCalls.text .python rfl hids
  obtain ⟨v, hv, hagrees⟩ := hall .outline none false
  rw [hv] at hshown
  rw [hstats] at hcounted
  exact ⟨stats, v, hstats, hv, hagrees, Option.some.inj hcounted, Option.some.inj hshown⟩

end Pipeline

end CodeDiagram
