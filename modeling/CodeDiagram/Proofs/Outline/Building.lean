/-
# Drawing an outline

`Outline.build` works off a list of visits.  A visit draws one more place of the document: the
outline that is drawn, in one piece, of some places becomes the one that is drawn of one place more
(`visit_drawn`), if the place around that one is among them.

It is, for the visits stand for places in document order (`InOrder`): a step takes the first place
that waits and puts those inside it in front of the others (`InOrder.step`, `inside_visitOf`).
-/
import CodeDiagram.Diagram.Outline
import CodeDiagram.Proofs.Graph.Sound
import CodeDiagram.Proofs.Syntax.Paths

namespace CodeDiagram

open Syntax

namespace Outline

/-! ## 1. An outline in one piece -/

/-- The node of the graph that holds what stands at a path: the one of the path that is a step
shorter. -/
def parentIn (ps : List Place) (path : List Nat) : Option NodeId :=
  if path = [] then none else some ((ps.map (·.path)).idxOf path.dropLast)

/-- The visit that a place waits for. -/
def visitOf (ps : List Place) (k : Place) : Visit := ⟨k.node, k.path.length, parentIn ps k.path⟩

@[simp] theorem depth_visitOf (ps : List Place) (k : Place) :
    (visitOf ps k).depth = k.path.length := rfl

/-- The node that is drawn for the place at a position. -/
def vertexAt (fe : FrontEnd) (labelLength : Nat) (d : Document) (i : Nat) (k : Place) :
    Graph.Vertex :=
  ⟨i, k.node.kind, fe.classify k.node.kind, fe.label labelLength d k.node,
    some (d.line k.node)⟩

@[simp] theorem vertexAt_id (fe : FrontEnd) (labelLength : Nat) (d : Document) (i : Nat)
    (k : Place) : (vertexAt fe labelLength d i k).id = i := rfl

/-- The edge that is drawn to the place at a position, if it is inside another one. -/
def edgesAt (ps : List Place) (i : Nat) (k : Place) : List Graph.Edge :=
  (parentIn ps k.path).toList.map (⟨·, i, some .contains⟩)

/-- What is noted of the place at a position. -/
def notesAt (fe : FrontEnd) (d : Document) (i : Nat) (k : Place) : List Diagnostic :=
  (fe.faults d k.node).map fun f => ⟨i, some (d.line k.node), f.message⟩

/-- The graph of a list of places. -/
def graphOf (fe : FrontEnd) (labelLength : Nat) (d : Document) (ps : List Place) : Graph where
  nodes := ps.mapIdx (vertexAt fe labelLength d)
  edges := (ps.mapIdx (edgesAt ps)).flatten
  nextId := ps.length

/-- The outline of a list of places. -/
def drawn (fe : FrontEnd) (limit labelLength : Nat) (d : Document) (ps : List Place) :
    Outline where
  graph := graphOf fe labelLength d ps
  declarations := ps.foldl (fun ds k => ds ++ ((fe.declarations d k.node).toOption.getD {})) {}
  diagnostics := (ps.mapIdx (notesAt fe d)).flatten
  isCut := ps.any fun k => (visitOf ps k).isCut limit

variable {fe : FrontEnd} {limit labelLength : Nat} {d : Document} {ps : List Place}

@[simp] theorem ids_graphOf : (graphOf fe labelLength d ps).ids = List.range ps.length := by
  refine List.ext_getElem (by simp [Graph.ids, graphOf]) fun i hi hr => ?_
  simp [Graph.ids, graphOf, vertexAt]

@[simp] theorem nextId_graphOf : (graphOf fe labelLength d ps).nextId = ps.length := rfl

/-! ## 2. Drawing one more place -/

/-- The place holds for a list of places if it is the root, or the node around it is listed. -/
def HeldIn (ps : List Place) (k : Place) : Prop :=
  k.path ≠ [] → k.path.dropLast ∈ ps.map (·.path)

theorem HeldIn.mono {ps qs : List Place} {k : Place} (h : HeldIn ps k) : HeldIn (ps ++ qs) k := by
  intro hk
  rw [List.map_append]
  exact List.mem_append_left _ (h hk)

/-- Where a node hangs is not changed by places that come later. -/
theorem parentIn_append {k : Place} (h : HeldIn ps k) (qs : List Place) :
    parentIn (ps ++ qs) k.path = parentIn ps k.path := by
  unfold parentIn
  split
  · rfl
  · rename_i hk
    rw [List.map_append, List.idxOf_append_of_mem (h hk)]

theorem visitOf_append {k : Place} (h : HeldIn ps k) (qs : List Place) :
    visitOf (ps ++ qs) k = visitOf ps k := by
  rw [visitOf, parentIn_append h, visitOf]

/-- The node that a place hangs from is there. -/
theorem parentIn_lt {k : Place} (h : HeldIn ps k) {i : NodeId} (hi : parentIn ps k.path = some i) :
    i < ps.length := by
  unfold parentIn at hi
  split at hi
  · cases hi
  · rename_i hk
    rw [← Option.some.inj hi]
    simpa using List.idxOf_lt_length_of_mem (h hk)

/-- The edges of one more place come last. -/
theorem flatten_edgesAt_concat {k : Place} (hps : ∀ l ∈ ps, HeldIn ps l) (hk : HeldIn ps k) :
    ((ps ++ [k]).mapIdx (edgesAt (ps ++ [k]))).flatten =
      (ps.mapIdx (edgesAt ps)).flatten ++ edgesAt ps ps.length k := by
  have hold : ps.mapIdx (edgesAt (ps ++ [k])) = ps.mapIdx (edgesAt ps) := by
    refine List.mapIdx_eq_mapIdx_iff.mpr fun i hi => ?_
    rw [edgesAt, edgesAt, parentIn_append (hps _ (List.getElem_mem hi))]
  have hnew : edgesAt (ps ++ [k]) ps.length k = edgesAt ps ps.length k := by
    rw [edgesAt, edgesAt, parentIn_append hk]
  rw [List.mapIdx_concat, List.flatten_concat, hold, hnew]

/-- The graph with one more place: a node, and an edge to it if the place is inside another. -/
theorem graphOf_concat {k : Place} (hps : ∀ l ∈ ps, HeldIn ps l) (hk : HeldIn ps k)
    (hs : (graphOf fe labelLength d ps).Sound) :
    graphOf fe labelLength d (ps ++ [k]) =
      match parentIn ps k.path with
      | some parent =>
        ((graphOf fe labelLength d ps).addNode k.node.kind (fe.classify k.node.kind)
          (fe.label labelLength d k.node) (some (d.line k.node))).1.addEdge
            ⟨parent, ps.length, some .contains⟩
      | none =>
        ((graphOf fe labelLength d ps).addNode k.node.kind (fe.classify k.node.kind)
          (fe.label labelLength d k.node) (some (d.line k.node))).1 := by
  have hnodes : (ps ++ [k]).mapIdx (vertexAt fe labelLength d) =
      ps.mapIdx (vertexAt fe labelLength d) ++ [vertexAt fe labelLength d ps.length k] :=
    List.mapIdx_concat
  cases hp : parentIn ps k.path with
  | none =>
    have hno : edgesAt ps ps.length k = [] := by rw [edgesAt, hp]; rfl
    rw [graphOf, hnodes, flatten_edgesAt_concat hps hk, hno, List.append_nil, List.length_append]
    rfl
  | some parent =>
    have hone : edgesAt ps ps.length k = [⟨parent, ps.length, some .contains⟩] := by
      rw [edgesAt, hp]; rfl
    have hmem : parent ∈ (graphOf fe labelLength d ps).ids := by
      rw [ids_graphOf, List.mem_range]
      exact parentIn_lt hk hp
    have hadd := hs.edges_addNode_addEdge hmem k.node.kind (fe.classify k.node.kind)
      (fe.label labelLength d k.node) (some (d.line k.node)) (some .contains)
    refine Graph.ext ?_ ?_ ?_
    · rw [Graph.nodes_addEdge]
      exact hnodes
    · rw [nextId_graphOf] at hadd
      rw [hadd, graphOf, flatten_edgesAt_concat hps hk, hone]
      rfl
    · rw [Graph.nextId_addEdge]
      simp

/-- **One visit draws one more place.** -/
theorem visit_drawn {k : Place} (hps : ∀ l ∈ ps, HeldIn ps l) (hk : HeldIn ps k)
    (hs : (graphOf fe labelLength d ps).Sound) :
    (drawn fe limit labelLength d ps).visit fe limit labelLength d (visitOf ps k) =
      (drawn fe limit labelLength d (ps ++ [k]), ps.length) := by
  have hnew : drawn fe limit labelLength d (ps ++ [k]) =
      { graph := graphOf fe labelLength d (ps ++ [k])
        declarations := (drawn fe limit labelLength d ps).declarations ++
          ((fe.declarations d k.node).toOption.getD {})
        diagnostics := (drawn fe limit labelLength d ps).diagnostics ++ notesAt fe d ps.length k
        isCut := (drawn fe limit labelLength d ps).isCut || (visitOf ps k).isCut limit } := by
    simp only [drawn, List.foldl_append, List.foldl_cons, List.foldl_nil, List.mapIdx_concat,
      List.flatten_concat, List.any_append, List.any_cons, List.any_nil, Bool.or_false]
    rfl
  rw [hnew, graphOf_concat hps hk hs]
  cases hp : parentIn ps k.path with
  | none => rw [visit, add, visitOf, hp]; rfl
  | some parent => rw [visit, add, visitOf, hp]; rfl

/-- Drawing one more place keeps the graph sound. -/
theorem sound_graphOf_concat {k : Place} (hps : ∀ l ∈ ps, HeldIn ps l) (hk : HeldIn ps k)
    (hs : (graphOf fe labelLength d ps).Sound) : (graphOf fe labelLength d (ps ++ [k])).Sound := by
  rw [graphOf_concat hps hk hs]
  split
  · exact (hs.addNode _ _ _ _).addEdge _
  · exact hs.addNode _ _ _ _

/-! ## 3. Places that wait -/

/-- The places directly inside a place, down to the limit. -/
def placesInside (limit : Nat) (k : Place) : List Place :=
  if k.path.length < limit then
    k.node.namedChildren.mapIdx fun i c => ⟨k.path ++ [i], c⟩
  else []

theorem mem_placesInside {k l : Place} : l ∈ placesInside limit k ↔
    k.path.length < limit ∧
      ∃ i, l.path = k.path ++ [i] ∧ k.node.namedChildren[i]? = some l.node := by
  unfold placesInside
  split
  · rename_i hk
    simp only [hk, true_and, List.mem_mapIdx]
    constructor
    · rintro ⟨i, hi, rfl⟩
      exact ⟨i, rfl, List.getElem?_eq_getElem hi⟩
    · rintro ⟨i, hp, hn⟩
      obtain ⟨hi, he⟩ := List.getElem?_eq_some_iff.mp hn
      exact ⟨i, hi, by rw [he, ← hp]⟩
  · rename_i hk
    simp [hk]

/-- The places inside are in order. -/
theorem sorted_placesInside (limit : Nat) (k : Place) :
    (placesInside limit k).Pairwise
      fun l m => ∃ i j, i < j ∧ l.path = k.path ++ [i] ∧ m.path = k.path ++ [j] := by
  unfold placesInside
  split
  · refine List.pairwise_iff_getElem.mpr fun i j hi hj hij => ?_
    simp only [List.getElem_mapIdx]
    exact ⟨i, j, hij, rfl, rfl⟩
  · exact List.Pairwise.nil

/-- Places that were taken and places that wait, which stand for all that is inside them, are in
document order, and the node around each of them was taken. -/
structure InOrder (root : Node) (limit : Nat) (taken waiting : List Place) : Prop where
  within : ∀ k ∈ taken ++ waiting, k.path.length ≤ limit ∧ root.at? k.path = some k.node
  sorted : (taken ++ waiting).Pairwise (·.path < ·.path)
  apart : waiting.Pairwise fun k l => ¬ k.path <+: l.path
  held : ∀ k ∈ taken ++ waiting, HeldIn taken k

namespace InOrder

variable {root : Node} {taken waiting : List Place}

/-- At first the root waits. -/
theorem start (root : Node) (limit : Nat) : InOrder root limit [] [⟨[], root⟩] where
  within := by simp
  sorted := List.pairwise_singleton _ _
  apart := List.pairwise_singleton _ _
  held := by simp [HeldIn]

/-- **A step takes the first place that waits; those inside it wait in front of the others.** -/
theorem step {k : Place} (h : InOrder root limit taken (k :: waiting)) :
    InOrder root limit (taken ++ [k]) (placesInside limit k ++ waiting) := by
  obtain ⟨hold, hwait, hbefore⟩ := List.pairwise_append.mp h.sorted
  obtain ⟨hfirst, hwait⟩ := List.pairwise_cons.mp hwait
  obtain ⟨hnot, hapart⟩ := List.pairwise_cons.mp h.apart
  have hk := h.within k (by simp)
  -- what is inside comes after what was taken and before what waited already
  have hafter : ∀ l ∈ taken ++ [k], ∀ m ∈ placesInside limit k, l.path < m.path := by
    intro l hl m hm
    obtain ⟨-, i, hp, -⟩ := mem_placesInside.mp hm
    have hkm : k.path < m.path := hp ▸ lt_append_cons k.path i []
    rcases List.mem_append.mp hl with hl | hl
    · exact List.lt_trans (hbefore l hl k List.mem_cons_self) hkm
    · rwa [List.mem_singleton.mp hl]
  have hinside : ∀ m ∈ placesInside limit k, ∀ l ∈ waiting, m.path < l.path := by
    intro m hm l hl
    obtain ⟨-, i, hp, -⟩ := mem_placesInside.mp hm
    rw [hp]
    exact append_lt_of_lt (hfirst l hl) (hnot l hl) [i]
  refine ⟨?_, ?_, ?_, ?_⟩
  · intro l hl
    simp only [List.mem_append, List.mem_singleton] at hl
    rcases hl with (hl | rfl) | hl | hl
    · exact h.within l (by simp [hl])
    · exact hk
    · obtain ⟨hlen, i, hp, hn⟩ := mem_placesInside.mp hl
      rw [hp, Node.at?_concat hk.2, hn]
      refine ⟨?_, rfl⟩
      rw [List.length_append]
      exact hlen
    · exact h.within l (by simp [hl])
  · refine List.pairwise_append.mpr ⟨?_, ?_, ?_⟩
    · refine List.pairwise_append.mpr ⟨hold, List.pairwise_singleton _ _, ?_⟩
      intro l hl m hm
      rw [List.mem_singleton.mp hm]
      exact hbefore l hl k List.mem_cons_self
    · refine List.pairwise_append.mpr ⟨?_, hwait, hinside⟩
      refine (sorted_placesInside limit k).imp ?_
      rintro l m ⟨i, j, hij, hl, hm⟩
      rw [hl, hm]
      exact lt_of_branch k.path hij [] []
    · intro l hl m hm
      rcases List.mem_append.mp hm with hm | hm
      · exact hafter l hl m hm
      · rcases List.mem_append.mp hl with hl | hl
        · exact hbefore l hl m (List.mem_cons_of_mem _ hm)
        · rw [List.mem_singleton.mp hl]
          exact hfirst m hm
  · refine List.pairwise_append.mpr ⟨?_, hapart, ?_⟩
    · refine (sorted_placesInside limit k).imp ?_
      rintro l m ⟨i, j, hij, hl, hm⟩ hpre
      rw [hl, hm, List.prefix_append_right_inj] at hpre
      simp at hpre
      omega
    · intro m hm l hl hpre
      obtain ⟨-, i, hp, -⟩ := mem_placesInside.mp hm
      exact hnot l hl ((List.prefix_append k.path [i]).trans (hp ▸ hpre))
  · intro l hl
    simp only [List.mem_append, List.mem_singleton] at hl
    rcases hl with (hl | rfl) | hl | hl
    · exact (h.held l (by simp [hl])).mono
    · exact (h.held l (by simp)).mono
    · obtain ⟨-, i, hp, -⟩ := mem_placesInside.mp hl
      intro _
      rw [hp]
      simp
    · exact (h.held l (by simp [hl])).mono

/-- The first place that waits is passed over. -/
theorem skip {k : Place} (h : InOrder root limit taken (k :: waiting)) :
    InOrder root limit taken waiting where
  within l hl := h.within l ((List.sublist_cons_self k waiting).append_left taken |>.mem hl)
  sorted := h.sorted.sublist ((List.sublist_cons_self k waiting).append_left taken)
  apart := (List.pairwise_cons.mp h.apart).2
  held l hl := h.held l ((List.sublist_cons_self k waiting).append_left taken |>.mem hl)

/-- The places that were taken come before the first place that waits. -/
theorem path_lt {k : Place} (h : InOrder root limit taken (k :: waiting)) {l : Place}
    (hl : l ∈ taken) : l.path < k.path :=
  (List.pairwise_append.mp h.sorted).2.2 l hl k List.mem_cons_self

theorem path_ne {k : Place} (h : InOrder root limit taken (k :: waiting)) {l : Place}
    (hl : l ∈ taken) : l.path ≠ k.path := by
  intro he
  have hlt := h.path_lt hl
  rw [he] at hlt
  exact List.lt_irrefl _ hlt

end InOrder

/-! ## 4. Visits that wait -/

/-- The visits that a visit leads to wait for the places inside. -/
theorem inside_visitOf (limit : Nat) {placed : List Place} {k : Place}
    (hp : ∀ l ∈ placed, l.path ≠ k.path) :
    (visitOf placed k).inside limit placed.length =
      (placesInside limit k).map (visitOf (placed ++ [k])) := by
  have hidx : ((placed ++ [k]).map (·.path)).idxOf k.path = placed.length := by
    have hnot : k.path ∉ placed.map (·.path) := by
      intro hmem
      obtain ⟨l, hl, he⟩ := List.mem_map.mp hmem
      exact hp l hl he
    rw [List.map_append, List.idxOf_append_of_notMem hnot]
    simp
  rw [List.map_append] at hidx
  unfold Visit.inside placesInside
  by_cases hlen : k.path.length < limit
  · rw [depth_visitOf, if_pos hlen, if_pos hlen]
    refine List.ext_getElem (by simp [visitOf]) fun i hi _ => ?_
    simpa [visitOf, parentIn] using hidx.symm
  · rw [depth_visitOf, if_neg hlen, if_neg hlen]
    rfl

end Outline

end CodeDiagram
