/-
# Uses and their definitions

A read is linked to the node that its name was bound to by the latest event before it, so the uses
of the finished graph are the reads that some event before them binds (`useAt_eq_some_iff`), and
each has one definition (`IsResolved`).  Entering a function binds no more parameters than it was
declared with; `followsEvents_iff` says when that makes a difference.

`synthesize_follows_evaluation` puts this together with the run of the walk.
-/
import CodeDiagram.FrontEnd.Java
import CodeDiagram.Proofs.DataFlow.Evaluation
import CodeDiagram.Proofs.DataFlow.States
import CodeDiagram.Syntax.Recorded

namespace CodeDiagram.DataFlow

open CodeDiagram.Graph Syntax

variable {functions : List FunctionInfo} {events : List Event}

/-! ## 1. Uses along the events -/

/-- The use that the event at a position adds, and the edge to it. -/
def useAt (functions : List FunctionInfo) (events : List Event) (j : Nat) :
    Option (Vertex × Edge) :=
  events[j]?.bind (stateAt functions events j).useOf

/-- **A use is a read of a name with a latest binding.** -/
theorem useAt_eq_some_iff {j : Nat} {u : Vertex} {e : Edge} :
    useAt functions events j = some (u, e) ↔
      ∃ (x : String) (line : Nat) (id : NodeId), events[j]? = some (.read x line) ∧
        LatestBefore functions events j x id ∧
        u = ⟨idAt functions events j, "use", .useSite, x, some line⟩ ∧
        e = ⟨id, idAt functions events j, some .defines⟩ := by
  constructor
  · intro h
    obtain ⟨event, hevent, huse⟩ := Option.bind_eq_some_iff.mp h
    cases event with
    | define bound => cases huse
    | enter name line parameters => cases huse
    | read x line =>
      obtain ⟨id, hid, heq⟩ := Option.map_eq_some_iff.mp huse
      obtain ⟨rfl, rfl⟩ := Prod.mk.inj heq
      exact ⟨x, line, id, hevent, lookup_stateAt.mp hid, rfl, rfl⟩
  · rintro ⟨x, line, id, hevent, hlatest, rfl, rfl⟩
    rw [useAt, hevent, Option.bind_some, useOf, lookup_stateAt.mpr hlatest]
    rfl

/-- The uses in the graph are those of the events so far, in order, and so are the edges to them. -/
theorem uses_stateAt (j : Nat) :
    (stateAt functions events j).graph.nodesOf .useSite =
        ((List.range j).filterMap (useAt functions events)).map (·.1) ∧
      (stateAt functions events j).graph.definesEdges =
        ((List.range j).filterMap (useAt functions events)).map (·.2) := by
  induction j with
  | zero =>
    have hq := (declareAll_quiet functions).2.2
    exact ⟨hq.uses, hq.defines⟩
  | succ j ih =>
    have hlast : (List.range (j + 1)).filterMap (useAt functions events) =
        (List.range j).filterMap (useAt functions events) ++ (useAt functions events j).toList := by
      rw [List.range_succ, List.filterMap_append]
      cases hj : useAt functions events j with
      | none => simp [hj]
      | some x => simp [hj]
    rw [hlast, List.map_append, List.map_append, ← ih.1, ← ih.2]
    cases he : events[j]? with
    | none =>
      rw [stateAt_succ_of_none he, useAt, he]
      simp
    | some e =>
      have hk := known_stateAt functions events j
      rw [stateAt_succ he, uses_record hk, defines_record hk, useAt, he, Option.bind_some]
      cases (stateAt functions events j).useOf e with
      | none => exact ⟨rfl, rfl⟩
      | some x => exact ⟨rfl, rfl⟩

/-- Later events have later identities, once a use was added. -/
theorem idAt_lt {i j : Nat} {x : Vertex × Edge} (hx : useAt functions events i = some x)
    (hij : i < j) : idAt functions events i < idAt functions events j := by
  obtain ⟨e, he, huse⟩ := Option.bind_eq_some_iff.mp hx
  have hnext := nextId_record (stateAt functions events i) e
  rw [huse, ← stateAt_succ he] at hnext
  exact Nat.lt_of_lt_of_le hnext (stateAt_mono hij).2

/-- Different reads have different uses. -/
theorem idAt_inj {i j : Nat} {x y : Vertex × Edge} (hx : useAt functions events i = some x)
    (hy : useAt functions events j = some y)
    (he : idAt functions events i = idAt functions events j) : i = j := by
  rcases Nat.lt_trichotomy i j with hij | hij | hij
  · exact absurd he (Nat.ne_of_lt (idAt_lt hx hij))
  · exact hij
  · exact absurd he.symm (Nat.ne_of_lt (idAt_lt hy hij))

/-! ## 2. The finished graph -/

/-- The use of a read is there, and the edge from a definition is the only `defines` edge to it. -/
def IsLinked (functions : List FunctionInfo) (events : List Event) (g : Graph) (j : Nat)
    (x : String) (line : Nat) (id : NodeId) : Prop :=
  ⟨idAt functions events j, "use", .useSite, x, some line⟩ ∈ g.nodes ∧
    ∀ e, (e ∈ g.edges ∧ e.relation = some .defines ∧ e.target = idAt functions events j) ↔
      e = ⟨id, idAt functions events j, some .defines⟩

/-- The uses of a graph are those of some events: each read of a name with a latest binding has one
use with one edge from that binding, and other reads leave no trace. -/
structure IsResolved (functions : List FunctionInfo) (events : List Event) (g : Graph) : Prop where
  nodup_ids : g.ids.Nodup
  edges_nodup : g.edges.Nodup
  /-- A definition binds its name to a node of its own. -/
  define : ∀ i b, events[i]? = some (.define b) →
    BindsAt functions events i b.name (idAt functions events i) ∧
      ⟨idAt functions events i, (bindingNode b.binding).1, (bindingNode b.binding).2, b.name,
        some b.line⟩ ∈ g.nodes
  /-- Entering a function binds parameter nodes of the function. -/
  enter : ∀ i name line ps x id, events[i]? = some (.enter name line ps) →
    BindsAt functions events i x id → x ∈ ps ∧ IsParameter g line id
  /-- No read binds a name. -/
  read : ∀ i x line, events[i]? = some (.read x line) →
    ∀ y id, ¬ BindsAt functions events i y id
  linked : ∀ j x line id, events[j]? = some (.read x line) → LatestBefore functions events j x id →
    IsLinked functions events g j x line id
  silent : ∀ j x line, events[j]? = some (.read x line) →
    (∀ id, ¬ LatestBefore functions events j x id) →
      stateAt functions events (j + 1) = stateAt functions events j
  uses : ∀ u ∈ g.nodesOf .useSite, ∃! j, ∃ x line id, events[j]? = some (.read x line) ∧
    LatestBefore functions events j x id ∧
      u = ⟨idAt functions events j, "use", .useSite, x, some line⟩
  defines : ∀ e ∈ g.edges, e.relation = some .defines →
    ∃ u ∈ g.nodesOf .useSite, e.target = u.id

theorem foldl_record_eq (functions : List FunctionInfo) (events : List Event) :
    events.foldl record (declareAll functions) = stateAt functions events events.length := by
  rw [stateAt, List.take_length]

/-- Uses and their edges are shown as they were added, and nothing gets lost on the way. -/
theorem synthesize_shows (fe : FrontEnd) (functions : List FunctionInfo) (d : Document) :
    (synthesize fe functions d).Sound ∧
      (∀ v ∈ (stateAt functions (d.flow fe) (d.flow fe).length).graph.nodes,
        v ∈ (synthesize fe functions d).nodes) ∧
      (synthesize fe functions d).nodesOf .useSite =
        (stateAt functions (d.flow fe) (d.flow fe).length).graph.nodesOf .useSite ∧
      (synthesize fe functions d).definesEdges =
        (stateAt functions (d.flow fe) (d.flow fe).length).graph.definesEdges := by
  have hs := (known_stateAt functions (d.flow fe) (d.flow fe).length).sound
  rw [synthesize, foldl_record_eq]
  generalize (stateAt functions (d.flow fe) (d.flow fe).length).graph = g at hs
  split
  · rename_i hempty
    have hnodes : g.nodes = [] := List.isEmpty_iff.mp hempty
    have hedges : g.edges = [] := by
      rw [List.eq_nil_iff_forall_not_mem]
      intro e he
      have := (hs.joined e he).1
      rw [Graph.ids, hnodes] at this
      cases this
    refine ⟨Sound.empty.addNode _ _ _ _, by simp [hnodes], ?_, ?_⟩
    · rw [nodesOf, nodesOf, hnodes]
      rfl
    · rw [definesEdges, definesEdges, hedges]
      rfl
  · exact ⟨hs, fun _ h => h, rfl, rfl⟩

/-- The uses of the finished graph, with the edges to them. -/
theorem mem_uses_synthesize (fe : FrontEnd) (functions : List FunctionInfo) (d : Document) :
    (∀ u, u ∈ (synthesize fe functions d).nodesOf .useSite ↔
      ∃ j e, useAt functions (d.flow fe) j = some (u, e)) ∧
    ∀ e, e ∈ (synthesize fe functions d).edges ∧ e.relation = some .defines ↔
      ∃ j u, useAt functions (d.flow fe) j = some (u, e) := by
  obtain ⟨-, -, huses, hdefines⟩ := synthesize_shows fe functions d
  have hmem : ∀ x, x ∈ (List.range (d.flow fe).length).filterMap (useAt functions (d.flow fe)) ↔
      ∃ j, useAt functions (d.flow fe) j = some x := by
    intro x
    rw [List.mem_filterMap]
    constructor
    · rintro ⟨j, -, hj⟩
      exact ⟨j, hj⟩
    · rintro ⟨j, hj⟩
      obtain ⟨e, he, -⟩ := Option.bind_eq_some_iff.mp hj
      exact ⟨j, List.mem_range.mpr (List.getElem?_eq_some_iff.mp he).1, hj⟩
  constructor
  · intro u
    rw [huses, (uses_stateAt _).1, List.mem_map]
    constructor
    · rintro ⟨⟨u, e⟩, hx, rfl⟩
      obtain ⟨j, hj⟩ := (hmem _).mp hx
      exact ⟨j, e, hj⟩
    · rintro ⟨j, e, hj⟩
      exact ⟨(u, e), (hmem _).mpr ⟨j, hj⟩, rfl⟩
  · intro e
    rw [← mem_definesEdges, hdefines, (uses_stateAt _).2, List.mem_map]
    constructor
    · rintro ⟨⟨u, e⟩, hx, rfl⟩
      obtain ⟨j, hj⟩ := (hmem _).mp hx
      exact ⟨j, u, hj⟩
    · rintro ⟨j, u, hj⟩
      exact ⟨(u, e), (hmem _).mpr ⟨j, hj⟩, rfl⟩

/-- **The uses of a document are its reads, each with the latest binding of its name.** -/
theorem synthesize_isResolved (fe : FrontEnd) (functions : List FunctionInfo) (d : Document) :
    IsResolved functions (d.flow fe) (synthesize fe functions d) := by
  obtain ⟨hs, hnodes, -, -⟩ := synthesize_shows fe functions d
  obtain ⟨huses, hdefines⟩ := mem_uses_synthesize fe functions d
  generalize synthesize fe functions d = g at *
  generalize d.flow fe = events at *
  -- what an event added is still there at the end
  have hlast : ∀ {i e}, events[i]? = some e →
      ∀ v ∈ ((stateAt functions events i).record e).graph.nodes, v ∈ g.nodes := by
    intro i e he v hv
    rw [← stateAt_succ he] at hv
    exact hnodes v ((stateAt_mono (List.getElem?_eq_some_iff.mp he).1).1 v hv)
  exact {
    nodup_ids := hs.nodup_ids
    edges_nodup := hs.nodup
    define := by
      intro i b hb
      refine ⟨⟨_, hb, by simp [bindings, idAt]⟩, hlast hb _ ?_⟩
      exact List.mem_append_right _ List.mem_cons_self
    enter := by
      rintro i name line ps x id he ⟨e, he', hid⟩
      obtain rfl : e = .enter name line ps := Option.some.inj (he'.symm.trans he)
      obtain ⟨l, r, hl, -⟩ := List.lookup_eq_some_iff.mp hid
      have hmem : (x, id) ∈ ps.zip ((stateAt functions events i).prepare name line ps).2 :=
        List.mem_reverse.mp (by
          show (x, id) ∈ ((stateAt functions events i).bindings (.enter name line ps)).reverse
          simp [hl])
      obtain ⟨hx, hids⟩ := List.of_mem_zip hmem
      have hp := ((known_stateAt functions events i).prepare name line ps).2 id hids
      refine ⟨hx, hp.mono fun v hv => hlast he v ?_⟩
      rw [DataFlow.record, enter_eq]
      exact hv
    read := by
      rintro i x line he y id ⟨e, he', hid⟩
      obtain rfl : e = .read x line := Option.some.inj (he'.symm.trans he)
      cases hid
    linked := by
      intro j x line id he hlatest
      have hj := useAt_eq_some_iff.mpr ⟨x, line, id, he, hlatest, rfl, rfl⟩
      refine ⟨(mem_nodesOf.mp ((huses _).mpr ⟨j, _, hj⟩)).1, fun e => ?_⟩
      constructor
      · rintro ⟨hmem, hrelation, htarget⟩
        obtain ⟨k, u, hk⟩ := (hdefines e).mp ⟨hmem, hrelation⟩
        have hkj : k = j := by
          obtain ⟨_, _, _, -, -, -, rfl⟩ := useAt_eq_some_iff.mp hk
          exact idAt_inj hk hj htarget
        rw [hkj, hj, Option.some.injEq, Prod.mk.injEq] at hk
        exact hk.2.symm
      · rintro rfl
        obtain ⟨hmem, hrelation⟩ := (hdefines _).mpr ⟨j, _, hj⟩
        exact ⟨hmem, hrelation, rfl⟩
    silent := by
      intro j x line he hno
      rw [stateAt_succ he]
      refine record_read_of_none ?_ line
      rw [Option.eq_none_iff_forall_not_mem]
      exact fun id hid => hno id (lookup_stateAt.mp hid)
    uses := by
      intro u hu
      obtain ⟨j, e, hj⟩ := (huses u).mp hu
      obtain ⟨x, line, id, he, hlatest, hu', -⟩ := useAt_eq_some_iff.mp hj
      refine ⟨j, ⟨x, line, id, he, hlatest, hu'⟩, ?_⟩
      rintro k ⟨x', line', id', he', hlatest', hu''⟩
      have hk := useAt_eq_some_iff.mpr ⟨x', line', id', he', hlatest', rfl, rfl⟩
      exact idAt_inj hk hj (congrArg Vertex.id (hu''.symm.trans hu'))
    defines := by
      intro e he hrelation
      obtain ⟨j, u, hj⟩ := (hdefines e).mp ⟨he, hrelation⟩
      obtain ⟨x, line, id, -, -, hu, rfl⟩ := useAt_eq_some_iff.mp hj
      exact ⟨u, (huses u).mpr ⟨j, _, hj⟩, by rw [hu]⟩ }

/-! ## 3. Events for a name -/

/-- An event is for a name if it defines the name or enters a function with such a parameter. -/
def IsFor (x : String) : Event → Prop
  | .define bound => bound.name = x
  | .enter _ _ parameters => x ∈ parameters
  | .read _ _ => False

/-- Of the events before a position, the latest for a name. -/
def LatestFor (events : List Event) (j : Nat) (x : String) (i : Nat) : Prop :=
  i < j ∧ (∃ e, events[i]? = some e ∧ IsFor x e) ∧
    ∀ k, i < k → k < j → ∀ e, events[k]? = some e → ¬ IsFor x e

/-- If some event before a position is for a name, there is a latest one. -/
theorem exists_latestFor {i j : Nat} {x : String} {e : Event} (hij : i < j)
    (he : events[i]? = some e) (hx : IsFor x e) : ∃ i, LatestFor events j x i := by
  induction j with
  | zero => exact absurd hij (Nat.not_lt_zero i)
  | succ j ih =>
    by_cases hj : ∃ e, events[j]? = some e ∧ IsFor x e
    · exact ⟨j, Nat.lt_succ_self j, hj, fun k hk hkj => by omega⟩
    · rcases Nat.lt_succ_iff_lt_or_eq.mp hij with hij | rfl
      · obtain ⟨i, hi, hfor, hlatest⟩ := ih hij
        refine ⟨i, Nat.lt_succ_of_lt hi, hfor, fun k hik hk e he hxe => ?_⟩
        rcases Nat.lt_succ_iff_lt_or_eq.mp hk with hk | rfl
        · exact hlatest k hik hk e he hxe
        · exact hj ⟨e, he, hxe⟩
      · exact absurd ⟨e, he, hx⟩ hj

/-- Only an event for a name binds it. -/
theorem isFor_of_bindsAt {i : Nat} {x : String} {id : NodeId}
    (h : BindsAt functions events i x id) : ∃ e, events[i]? = some e ∧ IsFor x e := by
  obtain ⟨e, he, hid⟩ := h
  obtain ⟨l, r, hl, -⟩ := List.lookup_eq_some_iff.mp hid
  have hmem : (x, id) ∈ (stateAt functions events i).bindings e :=
    List.mem_reverse.mp (by simp [hl])
  refine ⟨e, he, ?_⟩
  cases e with
  | define bound => exact (congrArg Prod.fst (List.mem_singleton.mp hmem)).symm
  | enter name line parameters => exact (List.of_mem_zip hmem).1
  | read name line => cases hmem

/-- An event for a name binds it, unless it enters a function that was declared with too few
parameters. -/
theorem exists_bindsAt_iff {i : Nat} {x : String} {e : Event} (he : events[i]? = some e)
    (hx : IsFor x e) : (∃ id, BindsAt functions events i x id) ↔
      ∀ name line ps, e = .enter name line ps → x ∈ ps.take (arity functions events name line) := by
  have hbinds : (∃ id, BindsAt functions events i x id) ↔
      x ∈ ((stateAt functions events i).bindings e).map (·.1) := by
    rw [← List.mem_reverse, ← List.map_reverse, ← lookup_isSome_iff_mem, Option.isSome_iff_exists]
    refine exists_congr fun id => ?_
    constructor
    · rintro ⟨e', he', hid⟩
      rwa [Option.some.inj (he.symm.trans he')]
    · exact fun hid => ⟨e, he, hid⟩
  rw [hbinds]
  cases e with
  | define bound =>
    constructor
    · exact fun _ _ _ _ h => Event.noConfusion h
    · exact fun _ => List.mem_map.mpr ⟨_, List.mem_cons_self, hx⟩
  | enter name line ps =>
    have hzip : ((stateAt functions events i).bindings (.enter name line ps)).map (·.1) =
        ps.take (arity functions events name line) := by
      rw [← length_prepare_stateAt he]
      exact map_fst_zip_eq_take _ _
    rw [hzip]
    constructor
    · rintro h _ _ _ ⟨rfl, rfl, rfl⟩
      exact h
    · exact fun h => h name line ps rfl
  | read name line => exact hx.elim

/-- Every read is linked to what the latest event for its name binds, and a read without such an
event leaves no trace. -/
structure FollowsEvents (functions : List FunctionInfo) (events : List Event) (g : Graph) :
    Prop where
  linked : ∀ j x line i, events[j]? = some (.read x line) → LatestFor events j x i →
    ∃ id, BindsAt functions events i x id ∧ IsLinked functions events g j x line id
  silent : ∀ j x line, events[j]? = some (.read x line) → (∀ i, ¬ LatestFor events j x i) →
    stateAt functions events (j + 1) = stateAt functions events j

/-- **Reads follow the latest event for their name** exactly if each such event that enters a
function binds the name. -/
theorem followsEvents_iff {g : Graph} (h : IsResolved functions events g) :
    FollowsEvents functions events g ↔
      ∀ j x line i name fline ps, events[j]? = some (.read x line) → LatestFor events j x i →
        events[i]? = some (.enter name fline ps) →
          x ∈ ps.take (arity functions events name fline) := by
  constructor
  · intro hf j x line i name fline ps hj hi he
    obtain ⟨id, hid, -⟩ := hf.linked j x line i hj hi
    obtain ⟨-, ⟨e', he', hx⟩, -⟩ := hi
    obtain rfl : e' = .enter name fline ps := Option.some.inj (he'.symm.trans he)
    exact (exists_bindsAt_iff he hx).mp ⟨id, hid⟩ name fline ps rfl
  · intro hall
    refine ⟨fun j x line i hj hi => ?_, fun j x line hj hno => ?_⟩
    · obtain ⟨hij, ⟨e, he, hx⟩, hlatest⟩ := hi
      obtain ⟨id, hid⟩ := (exists_bindsAt_iff he hx).mpr fun name fline ps heq =>
        hall j x line i name fline ps hj ⟨hij, ⟨e, he, hx⟩, hlatest⟩ (heq ▸ he)
      refine ⟨id, hid, h.linked j x line id hj ⟨i, hij, hid, fun k hik hk id' hb => ?_⟩⟩
      obtain ⟨e', he', hx'⟩ := isFor_of_bindsAt hb
      exact hlatest k hik hk e' he' hx'
    · refine h.silent j x line hj fun id hid => ?_
      obtain ⟨i, hij, hb, -⟩ := hid
      obtain ⟨e, he, hx⟩ := isFor_of_bindsAt hb
      obtain ⟨i, hi⟩ := exists_latestFor hij he hx
      exact hno i hi

/-! ## 4. The data flow of a document -/

theorem isResolved_evaluate (fe : FrontEnd) (functions : List FunctionInfo) (d : Document) :
    IsResolved functions (fe.evaluate d d.root) (synthesize fe functions d) :=
  flow_eq_evaluate fe d ▸ synthesize_isResolved fe functions d

/-- **The data flow of a document is its evaluation.**  The walk ends, and what it finds is what the
recursive evaluation of the root finds.  Each read among that has one use at most, linked to what
its name was bound to last; and that is what the latest event for the name binds, exactly if no such
event enters a function that was declared with too few parameters. -/
theorem synthesize_follows_evaluation (fe : FrontEnd) (functions : List FunctionInfo)
    (d : Document) :
    (∃ k, (Machine.turn fe d)^[k] { agenda := [.visit d.root] } =
      ⟨fe.trail d d.root, fe.evaluate d d.root, []⟩) ∧
    (∀ n, fe.evaluate d n =
      match fe.flowStep d n with
      | .bind values targets binding next =>
        values.flatMap (fe.evaluate d) ++ (fe.namesOf d targets binding).map .define ++
          (fe.readsOf d targets binding).flatMap (fe.evaluate d) ++ next.flatMap (fe.evaluate d)
      | .function name parameters body =>
        .enter name (d.line n) parameters :: body.flatMap (fe.evaluate d)
      | .reference name => [.read name (d.line n)]
      | .walk children => children.flatMap (fe.evaluate d)
      | .skip => []) ∧
    IsResolved functions (fe.evaluate d d.root) (synthesize fe functions d) ∧
    (FollowsEvents functions (fe.evaluate d d.root) (synthesize fe functions d) ↔
      ∀ j x line i name fline ps, (fe.evaluate d d.root)[j]? = some (.read x line) →
        LatestFor (fe.evaluate d d.root) j x i →
        (fe.evaluate d d.root)[i]? = some (.enter name fline ps) →
          x ∈ ps.take (arity functions (fe.evaluate d d.root) name fline)) :=
  ⟨Machine.run fe d, fe.evaluate_eq d, isResolved_evaluate fe functions d,
    followsEvents_iff (isResolved_evaluate fe functions d)⟩

/-- The text of two methods of one name on one line. -/
def overloads : Document where
  language := .java
  text := "class A \x7b void f(int a) \x7b g(a); \x7d void f() \x7b \x7d \x7d"
  tree := (Tree.ofRecords? [
    ⟨0, "program", 0, 0, 48, none⟩, ⟨1, "class_declaration", 0, 0, 48, none⟩,
    ⟨2, "class", 1, 0, 5, none⟩, ⟨2, "identifier", 0, 6, 7, "name"⟩,
    ⟨2, "class_body", 0, 8, 48, "body"⟩, ⟨3, "\x7b", 1, 8, 9, none⟩,
    ⟨3, "method_declaration", 0, 10, 33, none⟩, ⟨4, "void_type", 0, 10, 14, "type"⟩,
    ⟨4, "identifier", 0, 15, 16, "name"⟩, ⟨4, "formal_parameters", 0, 16, 23, "parameters"⟩,
    ⟨5, "(", 1, 16, 17, none⟩, ⟨5, "formal_parameter", 0, 17, 22, none⟩,
    ⟨6, "integral_type", 0, 17, 20, "type"⟩, ⟨7, "int", 1, 17, 20, none⟩,
    ⟨6, "identifier", 0, 21, 22, "name"⟩, ⟨5, ")", 1, 22, 23, none⟩,
    ⟨4, "block", 0, 24, 33, "body"⟩, ⟨5, "\x7b", 1, 24, 25, none⟩,
    ⟨5, "expression_statement", 0, 26, 31, none⟩, ⟨6, "method_invocation", 0, 26, 30, none⟩,
    ⟨7, "identifier", 0, 26, 27, "name"⟩, ⟨7, "argument_list", 0, 27, 30, "arguments"⟩,
    ⟨8, "(", 1, 27, 28, none⟩, ⟨8, "identifier", 0, 28, 29, none⟩, ⟨8, ")", 1, 29, 30, none⟩,
    ⟨6, ";", 1, 30, 31, none⟩, ⟨5, "\x7d", 1, 32, 33, none⟩,
    ⟨3, "method_declaration", 0, 34, 46, none⟩, ⟨4, "void_type", 0, 34, 38, "type"⟩,
    ⟨4, "identifier", 0, 39, 40, "name"⟩, ⟨4, "formal_parameters", 0, 40, 42, "parameters"⟩,
    ⟨5, "(", 1, 40, 41, none⟩, ⟨5, ")", 1, 41, 42, none⟩, ⟨4, "block", 0, 43, 46, "body"⟩,
    ⟨5, "\x7b", 1, 43, 44, none⟩, ⟨5, "\x7d", 1, 45, 46, none⟩,
    ⟨3, "\x7d", 1, 47, 48, none⟩]).getD default

/-- The functions of that text. -/
def overloadedFunctions : List FunctionInfo :=
  [{ name := "f", line := 1, parameters := ["a"] }, { name := "f", line := 1, parameters := [] }]

/-- Both methods are known by the same name and line, so entering the first finds the parameters of
the second: its own is not bound, and the read of it has no use. -/
theorem overloads_not_followed :
    Java.frontEnd.evaluate overloads overloads.root =
        [.enter "f" 1 ["a"], .read "a" 1, .enter "f" 1 []] ∧
      (synthesize Java.frontEnd overloadedFunctions overloads).nodesOf .useSite = [] ∧
      ¬ FollowsEvents overloadedFunctions (Java.frontEnd.evaluate overloads overloads.root)
        (synthesize Java.frontEnd overloadedFunctions overloads) := by
  have hrun := Machine.eq_of_agenda_isEmpty Java.frontEnd overloads 12 (by decide +kernel)
  have hevents : Java.frontEnd.evaluate overloads overloads.root =
      [.enter "f" 1 ["a"], .read "a" 1, .enter "f" 1 []] :=
    (congrArg Machine.found hrun).symm.trans (by decide +kernel)
  refine ⟨hevents, ?_, fun h => ?_⟩
  · rw [synthesize, flow_eq_evaluate, hevents]
    decide +kernel
  · have hall := (followsEvents_iff (isResolved_evaluate _ _ _)).mp h
    rw [hevents] at hall
    have hlatest : LatestFor [.enter "f" 1 ["a"], .read "a" 1, .enter "f" 1 []] 1 "a" 0 :=
      ⟨Nat.one_pos, ⟨_, rfl, List.mem_cons_self⟩, fun k hk hk' => by omega⟩
    exact absurd (hall 1 "a" 1 0 "f" 1 ["a"] rfl hlatest rfl) (by decide +kernel)

end CodeDiagram.DataFlow
