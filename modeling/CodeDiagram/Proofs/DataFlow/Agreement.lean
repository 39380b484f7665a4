/-
# Bindings in the graph and beside it

The names that a text binds are told twice: the data-flow graph has a node for each, and the
metadata lists them.  The graph has those that the walk comes across, once for each visit; the
metadata has those of the outline, once for each node.  The parameters of declared functions are in
both, so the two agree exactly if the walk adds what the nodes of the outline bind
(`run_bindings_agree_iff`).  If nothing is cut off they do, unless a visited node passes over one
that binds a name, or reads a target again.

`run_variadic_disagrees` is a text where that fails: a variable number of arguments is a parameter,
and its declarator, which the walk passes over, binds the name once more.
-/
import CodeDiagram.Proofs.DataFlow.Coverage
import CodeDiagram.Proofs.DataFlow.Definitions
import CodeDiagram.Proofs.DataFlow.Labels
import CodeDiagram.Proofs.DataFlow.Once
import CodeDiagram.Proofs.Outline.Collecting
import CodeDiagram.Proofs.Outline.Shape

namespace CodeDiagram

open Syntax

/-! ## 1. What the metadata lists -/

/-- The bindings of an outline are the parameters of its functions and what its nodes bind. -/
theorem Outline.IsMadeOf.bindings_perm {fe : FrontEnd} {labelLength : Nat} {d : Document}
    {ns : List Node} {o : Outline} (h : o.IsMadeOf fe labelLength d ns)
    (hfe : fe.DeclaresBindings) :
    o.declarations.bindings.Perm
      (o.declarations.functions.flatMap parameterVariables ++ ns.flatMap (fe.bound d)) := by
  rw [h.declarations]
  dsimp only [Declarations.collect]
  rw [List.flatMap_assoc, List.flatMap_congr fun n _ => hfe d n]
  exact (List.flatMap_append_perm _ _ _).symm

/-! ## 2. What the walk binds -/

section Visits

variable {fe : FrontEnd} {d : Document}

/-- What events bind is what is bound at the nodes that are visited. -/
theorem bound_flow_perm (fe : FrontEnd) (d : Document) :
    ((d.flow fe).flatMap Event.bound).Perm ((fe.trail d d.root).flatMap (fe.bound d)) := by
  rw [flow_eq_evaluate]
  refine ((evaluate_perm fe d d.root).flatMap_right Event.bound).trans (.of_eq ?_)
  rw [List.flatMap_assoc]
  exact List.flatMap_congr fun n _ => bound_findings fe d n

/-- Nodes that bind nothing do not count. -/
theorem flatMap_bound_filter (fe : FrontEnd) (d : Document) (ns : List Node) :
    (ns.filter fun n => !(fe.bound d n).isEmpty).flatMap (fe.bound d) =
      ns.flatMap (fe.bound d) := by
  induction ns with
  | nil => rfl
  | cons n ns ih =>
    rw [List.filter_cons, List.flatMap_cons]
    cases hn : fe.bound d n with
    | nil => simpa [hn] using ih
    | cons v vs => simp [hn, ih]

theorem isEmpty_bound_iff {n : Node} : (!(fe.bound d n).isEmpty) = true ↔ fe.bound d n ≠ [] := by
  simp

/-- Places of a tree whose identities are different are told apart by their nodes. -/
theorem nodup_nodes_of_listing {root : Node} (hroot : root.ids.Nodup) {limit : Nat}
    {ps : List Place} (h : Listing root limit ps) : (ps.map (·.node)).Nodup := by
  refine (h.nodup.of_map _).map_on ?_
  rintro ⟨path, n⟩ hk ⟨path', n'⟩ hk' rfl
  have hpath : path = path' := Node.path_unique hroot (h.at? hk) (h.at? hk') rfl
  rw [hpath]

/-- **If every node that binds a name is visited once**, then the nodes visited bind what the nodes
of the tree bind. -/
theorem bound_trail_perm (hroot : d.root.ids.Nodup) {limit : Nat} {ps : List Place}
    (h : Listing d.root limit ps)
    (hall : ∀ path n, d.root.at? path = some n → (⟨path, n⟩ : Place) ∈ ps)
    (hnamed : VisitsNamed fe d) (honce : VisitsBindersOnce fe d) :
    ((fe.trail d d.root).flatMap (fe.bound d)).Perm
      ((ps.map (·.node)).flatMap (fe.bound d)) := by
  rw [← flatMap_bound_filter fe d (fe.trail d d.root), ← flatMap_bound_filter fe d (ps.map _)]
  refine List.Perm.flatMap_right _ ((List.perm_ext_iff_of_nodup ?_ ?_).mpr fun n => ?_)
  · -- a visited node that binds is visited once, so its identity comes up once
    refine List.Nodup.of_map (·.id) (List.nodup_iff_count_le_one.mpr fun i => ?_)
    by_cases hi : i ∈ ((fe.trail d d.root).filter fun n => !(fe.bound d n).isEmpty).map (·.id)
    · obtain ⟨n, hn, rfl⟩ := List.mem_map.mp hi
      obtain ⟨hn, hbound⟩ := List.mem_filter.mp hn
      obtain ⟨path, hpath⟩ := hnamed n hn
      rw [← honce path n hpath (isEmpty_bound_iff.mp hbound)]
      exact (List.filter_sublist.map _).count_le _
    · rw [List.count_eq_zero_of_not_mem hi]
      exact Nat.zero_le 1
  · exact (nodup_nodes_of_listing hroot h).filter _
  · rw [List.mem_filter, List.mem_filter]
    refine and_congr_left fun hbound => ⟨fun hn => ?_, fun hn => ?_⟩
    · obtain ⟨path, hpath⟩ := hnamed n hn
      exact List.mem_map.mpr ⟨_, hall path n hpath, rfl⟩
    · obtain ⟨⟨path, n⟩, hk, rfl⟩ := List.mem_map.mp hn
      exact honce.mem_trail hroot hnamed (h.at? hk) (isEmpty_bound_iff.mp hbound)

end Visits

/-! ## 3. The answer to a request -/

namespace DataFlow

/-- The graph defines what the metadata lists as bound, as often. -/
def BindingsAgree (v : Visualization) : Prop :=
  v.graph.defined.Perm (v.metadata.bindings.map VariableInfo.shape)

/-- What is bound at some nodes, as graphs show it. -/
def shapesAt (fe : FrontEnd) (d : Document) (ns : List Node) :
    List (String × Option Nat × String) :=
  (ns.flatMap (fe.bound d)).map VariableInfo.shape

/-- A function is entered where the step at the node says so. -/
theorem exists_function_of_enter {fe : FrontEnd} {d : Document} {n : Node} {name : String}
    {line : Nat} {parameters : List String} (h : .enter name line parameters ∈ fe.findings d n) :
    line = d.line n ∧ ∃ body, fe.flowStep d n = .function name parameters body := by
  unfold FrontEnd.findings at h
  cases hstep : fe.flowStep d n with
  | bind values targets binding next =>
    rw [hstep] at h
    obtain ⟨b, -, hb⟩ := List.mem_map.mp h
    cases hb
  | function name' parameters' body =>
    rw [hstep] at h
    obtain ⟨rfl, rfl, rfl⟩ := Event.enter.inj (List.mem_singleton.mp h)
    exact ⟨rfl, body, rfl⟩
  | reference name' =>
    rw [hstep] at h
    cases List.mem_singleton.mp h
  | walk children =>
    rw [hstep] at h
    cases h
  | skip =>
    rw [hstep] at h
    cases h

variable {fe : FrontEnd} {d : Document} {labelLength : Nat} {ps : List Place} {o : Outline}

/-- If nothing is cut off, the functions that the walk enters are known beforehand. -/
theorem mem_keysOf_of_enter (hfe : fe.DeclaresEntered)
    (hmade : o.IsMadeOf fe labelLength d (ps.map (·.node)))
    (hall : ∀ path n, d.root.at? path = some n → (⟨path, n⟩ : Place) ∈ ps)
    (hnamed : VisitsNamed fe d) {name : String} {line : Nat} {parameters : List String}
    (h : .enter name line parameters ∈ d.flow fe) :
    (name, line) ∈ keysOf o.declarations.functions := by
  rw [flow_eq_evaluate] at h
  obtain ⟨n, hn, hfound⟩ := mem_evaluate_iff.mp h
  obtain ⟨rfl, body, hstep⟩ := exists_function_of_enter hfound
  obtain ⟨f, hf, rfl, hline⟩ := hfe d n name parameters body hstep
  obtain ⟨path, hpath⟩ := hnamed n hn
  rw [keysOf, List.mem_reverse, List.mem_map, hmade.declarations]
  exact ⟨f, List.mem_flatMap.mpr ⟨n, List.mem_map.mpr ⟨_, hall path n hpath, rfl⟩, hf⟩,
    Prod.ext rfl hline⟩

/-- The graph and the metadata have the parameters of the known functions in common, so they agree
if the events add what the nodes of the outline bind. -/
theorem synthesize_agrees_iff (hfe : fe.DeclaresBindings) {ns : List Node}
    (hmade : o.IsMadeOf fe labelLength d ns) :
    (synthesize fe o.declarations.functions d).defined.Perm
        (o.declarations.bindings.map VariableInfo.shape) ↔
      ((addedBy (keysOf o.declarations.functions) (d.flow fe)).map VariableInfo.shape).Perm
        (shapesAt fe d ns) := by
  rw [shapesAt, defined_synthesize, List.map_append,
    ((hmade.bindings_perm hfe).map VariableInfo.shape).congr_right, List.map_append,
    List.perm_append_left_iff]

/-- **The data flow of a text that can be read agrees with its metadata on what is bound** exactly
if the walk adds what the nodes of the outline bind.  If nothing is cut off and no step mentions a
token, what it adds is bound at the nodes that it visits.  So the two agree if every node that
binds a name is visited once; this is so if no visited node reads a target again or passes over a
node that binds a name. -/
theorem run_bindings_agree_iff (p : Pipeline) (request : DiagramRequest)
    (hfind : p.registry.find request.language = .ok request.language.frontEnd)
    (hdiagram : request.diagram = .dataFlow) {d : Document}
    (hparse : request.language.frontEnd.parse (p.grammar request.language) request.source =
      .ok d) (hd : d.tree.ids.Nodup) :
    ∃ v ps, p.run request = .ok v ∧
      Listing d.root (request.maxDepth.getD p.settings.pipeline.maxDepth) ps ∧
      (BindingsAgree v ↔
        ((addedBy (keysOf v.metadata.functions) (d.flow request.language.frontEnd)).map
          VariableInfo.shape).Perm (shapesAt request.language.frontEnd d (ps.map (·.node)))) ∧
      (v.metadata.maxDepthReached = false → StaysNamed request.language.frontEnd d →
        (BindingsAgree v ↔
          (shapesAt request.language.frontEnd d (request.language.frontEnd.trail d d.root)).Perm
            (shapesAt request.language.frontEnd d (ps.map (·.node)))) ∧
        (VisitsBindersOnce request.language.frontEnd d → BindingsAgree v) ∧
        ((∀ n ∈ request.language.frontEnd.trail d d.root,
            ¬ request.language.frontEnd.Rereads d n ∧
              ¬ request.language.frontEnd.PassesOver d n) →
          BindingsAgree v)) := by
  obtain ⟨v, hv, hdrawn⟩ := Pipeline.run_of_find p request hfind
  rw [Pipeline.drawing_of_ok p request hparse, hdiagram, Pipeline.draw] at hdrawn
  obtain ⟨hgraph, hrest⟩ := Prod.mk.inj hdrawn
  obtain ⟨hmetadata, -⟩ := Prod.mk.inj hrest
  have hroot : d.root.ids.Nodup := hd.sublist d.root_ids_sublist
  have hlawful := request.language.isLawful_frontEnd
  have hreads := request.language.readsNamed_frontEnd
  have hbindings := request.language.declaresBindings_frontEnd
  have hentered := request.language.declaresEntered_frontEnd
  generalize request.language.frontEnd = fe at *
  obtain ⟨ps, hps, -, hbuild⟩ := Outline.build_eq_drawn fe
    (request.maxDepth.getD p.settings.pipeline.maxDepth) p.settings.pipeline.maxLabelLength hroot
  have hmade := Outline.drawn_isMadeOf fe (request.maxDepth.getD p.settings.pipeline.maxDepth)
    p.settings.pipeline.maxLabelLength d ps
  rw [← hbuild] at hmade
  have hagree : BindingsAgree v ↔
      ((addedBy (keysOf v.metadata.functions) (d.flow fe)).map VariableInfo.shape).Perm
        (shapesAt fe d (ps.map (·.node))) := by
    rw [BindingsAgree, hgraph, hmetadata]
    exact synthesize_agrees_iff hbindings hmade
  refine ⟨v, ps, hv, hps, hagree, fun huncut hstays => ?_⟩
  have hnamed := hstays.visitsNamed hlawful hreads
  have hall : ∀ path n, d.root.at? path = some n → (⟨path, n⟩ : Place) ∈ ps := by
    refine fun path n hn => hps.mem_of_uncut (fun k hk hlimit => ?_) hn
    by_contra hbelow
    have hcut := (Outline.isCut_drawn fe p.settings.pipeline.maxLabelLength hps).mpr
      ⟨k, hk, hlimit, hbelow⟩
    rw [← hbuild] at hcut
    rw [hmetadata] at huncut
    exact Bool.false_ne_true (huncut.symm.trans hcut)
  -- every function that is entered is known, so only what is bound is added
  have hadded : addedBy (keysOf v.metadata.functions) (d.flow fe) =
      (d.flow fe).flatMap Event.bound := by
    rw [hmetadata]
    exact addedBy_of_declared fun _ _ _ h => mem_keysOf_of_enter hentered hmade hall hnamed h
  have hvisits : BindingsAgree v ↔
      (shapesAt fe d (fe.trail d d.root)).Perm (shapesAt fe d (ps.map (·.node))) := by
    rw [hagree, hadded]
    exact ((bound_flow_perm fe d).map VariableInfo.shape).congr_left _
  have honce : VisitsBindersOnce fe d → BindingsAgree v := fun honce =>
    hvisits.mpr ((bound_trail_perm hroot hps hall hnamed honce).map VariableInfo.shape)
  refine ⟨hvisits, honce, fun hlocal => honce ?_⟩
  exact (visitsBindersOnce_iff hlawful hroot hnamed fun n hn => (hlocal n hn).1).mpr fun n hn =>
    (hlocal n hn).2

/-- A name that is assigned twice is bound twice, in the graph and in the metadata, for the walk
visits both assignments. -/
theorem run_bindings_agree_iff_increment :
    ∃ v ps, (Pipeline.knowing increment).run (requestOf increment) = .ok v ∧
      Listing increment.root 10 ps ∧ v.metadata.maxDepthReached = false ∧
      StaysNamed Python.frontEnd increment ∧ BindingsAgree v ∧
      (shapesAt Python.frontEnd increment (ps.map (·.node))).Perm
        [("x", some 1, "variable"), ("x", some 2, "variable")] := by
  have hids : increment.tree.ids.Nodup := by decide +kernel
  obtain ⟨v, ps, hv, hps, -, hvisits⟩ := run_bindings_agree_iff (.knowing increment)
    (requestOf increment) rfl rfl (d := increment) rfl hids
  have hshown : ((Pipeline.knowing increment).run (requestOf increment)).toOption.map
      (fun v => (v.graph.defined, v.metadata.bindings, v.metadata.maxDepthReached)) =
        some ([("x", some 1, "variable"), ("x", some 2, "variable")],
          [⟨"x", 1, .localName⟩, ⟨"x", 2, .localName⟩], false) := by decide +kernel
  rw [hv] at hshown
  obtain ⟨hdefined, hlisted⟩ := Prod.mk.inj (Option.some.inj hshown)
  obtain ⟨hbindings, huncut⟩ := Prod.mk.inj hlisted
  have hagree : BindingsAgree v := by
    rw [BindingsAgree, hdefined, hbindings]
    decide
  have hvisited : Python.frontEnd.trail increment increment.root = _ :=
    (congrArg Machine.visited
      (Machine.eq_of_agenda_isEmpty Python.frontEnd increment 20 (by decide +kernel))).symm
  have hstays : StaysNamed Python.frontEnd increment := by
    rw [StaysNamed, hvisited]
    decide +kernel
  have hbound : shapesAt Python.frontEnd increment
      (Python.frontEnd.trail increment increment.root) =
        [("x", some 1, "variable"), ("x", some 2, "variable")] := by
    rw [hvisited]
    decide +kernel
  obtain ⟨hiff, -⟩ := hvisits huncut hstays
  exact ⟨v, ps, hv, hps, huncut, hstays, hagree, hbound ▸ (hiff.mp hagree).symm⟩

/-- The text of a method with a variable number of arguments. -/
def variadic : Document where
  language := .java
  text := "class A \x7b void g(int... x) \x7b \x7d \x7d"
  tree := (Tree.ofRecords? [
    ⟨0, "program", 0, 0, 32, none⟩, ⟨1, "class_declaration", 0, 0, 32, none⟩,
    ⟨2, "class", 1, 0, 5, none⟩, ⟨2, "identifier", 0, 6, 7, "name"⟩,
    ⟨2, "class_body", 0, 8, 32, "body"⟩, ⟨3, "\x7b", 1, 8, 9, none⟩,
    ⟨3, "method_declaration", 0, 10, 30, none⟩, ⟨4, "void_type", 0, 10, 14, "type"⟩,
    ⟨4, "identifier", 0, 15, 16, "name"⟩, ⟨4, "formal_parameters", 0, 16, 26, "parameters"⟩,
    ⟨5, "(", 1, 16, 17, none⟩, ⟨5, "spread_parameter", 0, 17, 25, none⟩,
    ⟨6, "integral_type", 0, 17, 20, none⟩, ⟨7, "int", 1, 17, 20, none⟩,
    ⟨6, "...", 1, 20, 23, none⟩, ⟨6, "variable_declarator", 0, 24, 25, none⟩,
    ⟨7, "identifier", 0, 24, 25, "name"⟩, ⟨5, ")", 1, 25, 26, none⟩,
    ⟨4, "block", 0, 27, 30, "body"⟩, ⟨5, "\x7b", 1, 27, 28, none⟩,
    ⟨5, "\x7d", 1, 29, 30, none⟩, ⟨3, "\x7d", 1, 31, 32, none⟩]).getD default

/-- The metadata lists the name as a parameter and as a local name, and the graph has the parameter
only.  Nothing is cut off. -/
theorem run_variadic_disagrees :
    ∃ v, (Pipeline.knowing variadic).run (requestOf variadic) = .ok v ∧
      v.metadata.maxDepthReached = false ∧
      v.graph.defined = [("x", some 1, "parameter")] ∧
      v.metadata.bindings = [⟨"x", 1, .parameter⟩, ⟨"x", 1, .localName⟩] ∧
      ¬ BindingsAgree v := by
  have hfind : (Pipeline.knowing variadic).registry.find (requestOf variadic).language =
      .ok Java.frontEnd := rfl
  obtain ⟨v, hv, -⟩ := Pipeline.run_of_find _ _ hfind
  have hshown : ((Pipeline.knowing variadic).run (requestOf variadic)).toOption.map
      (fun v => (v.graph.defined, v.metadata.bindings, v.metadata.maxDepthReached)) =
        some ([("x", some 1, "parameter")],
          [⟨"x", 1, .parameter⟩, ⟨"x", 1, .localName⟩], false) := by decide +kernel
  rw [hv] at hshown
  obtain ⟨hdefined, hlisted⟩ := Prod.mk.inj (Option.some.inj hshown)
  obtain ⟨hbindings, huncut⟩ := Prod.mk.inj hlisted
  refine ⟨v, hv, huncut, hdefined, hbindings, fun hagree => ?_⟩
  have hlength := hagree.length_eq
  rw [hdefined, hbindings] at hlength
  cases hlength

end DataFlow

end CodeDiagram
