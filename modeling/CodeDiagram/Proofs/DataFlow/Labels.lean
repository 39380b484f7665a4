/-
# Names of definitions and uses

An edge from a definition to a use ought to join nodes of one name.  What a read is linked to is the
node that its name was bound to last, and the names of such nodes are read off the events
(`boundTo?`): a definition binds its name to a node of that name, but a function that is entered
binds its parameters to the nodes that the function of its name and line was declared with, one
after the other.  So the edges join namesakes exactly if no read has a name that was last bound to a
node of another name (`synthesize_namesakes_iff`), and they do if functions of one name and line
have the same parameters (`readsNamesakes_of_agree`).
-/
import CodeDiagram.Proofs.DataFlow.Uses
import CodeDiagram.Proofs.FrontEnd.Functions
import CodeDiagram.Proofs.Outline.Growing
import CodeDiagram.Proofs.Pipeline.Runs

namespace CodeDiagram.DataFlow

open CodeDiagram.Graph Syntax

variable {functions : List FunctionInfo} {events : List Event}

/-! ## 1. What names are bound to -/

/-- The names that an event binds, each with the name of the node that it is bound to. -/
def boundLabels (functions : List FunctionInfo) (events : List Event) :
    Event → List (String × String)
  | .define bound => [(bound.name, bound.name)]
  | .enter name line parameters => parameters.zip (declaredWith functions events name line)
  | .read _ _ => []

/-- The name of the node that a name is bound to before the event at a position. -/
def boundTo? (functions : List FunctionInfo) (events : List Event) (j : Nat) (x : String) :
    Option String :=
  ((events.take j).flatMap (boundLabels functions events)).reverse.lookup x

/-- A name is bound to a node that defines another one. -/
def Binds (g : Graph) (p : String × NodeId) (q : String × String) : Prop :=
  p.1 = q.1 ∧ IsDefinition g p.2 q.2

/-- **An event binds names to nodes of the names that are read off it.** -/
theorem bindings_boundLabels (functions : List FunctionInfo) {j : Nat} {e : Event}
    (he : events[j]? = some e) :
    List.Forall₂ (Binds ((stateAt functions events j).record e).graph)
      ((stateAt functions events j).bindings e) (boundLabels functions events e) := by
  cases e with
  | define bound =>
    refine .cons ⟨rfl, _, List.mem_append_right _ List.mem_cons_self, rfl, ?_, rfl⟩ .nil
    cases bound.binding <;> simp [definitionKinds]
  | enter name line parameters =>
    rw [DataFlow.record, enter_eq]
    exact zip_forall₂ (prepare_stateAt he) parameters
  | read name line => exact .nil

/-- **The definitions of a state are nodes of the names that are read off the events.** -/
theorem definitions_boundLabels (functions : List FunctionInfo) (events : List Event) (j : Nat) :
    List.Forall₂ (Binds (stateAt functions events j).graph)
      (stateAt functions events j).definitions
      ((events.take j).flatMap (boundLabels functions events)).reverse := by
  induction j with
  | zero =>
    rw [definitions_stateAt_zero]
    exact .nil
  | succ j ih =>
    cases he : events[j]? with
    | none =>
      rw [stateAt_succ_of_none he, List.take_add_one, he, Option.toList_none, List.append_nil]
      exact ih
    | some e =>
      have hold : List.Forall₂ (Binds ((stateAt functions events j).record e).graph)
          (stateAt functions events j).definitions
          ((events.take j).flatMap (boundLabels functions events)).reverse :=
        ih.imp fun _ _ h => ⟨h.1, h.2.mono (nodes_record _ e)⟩
      have hnew := List.rel_reverse (bindings_boundLabels functions he)
      rw [stateAt_succ he, definitions_record, List.take_add_one, he, List.flatMap_append,
        List.reverse_append, Option.toList_some, List.flatMap_singleton]
      exact List.rel_append hnew hold

/-- A name is bound to a node exactly if the events say so, and to one of the name they say. -/
theorem lookup_boundTo? (functions : List FunctionInfo) (events : List Event) (j : Nat)
    (x : String) :
    Option.Rel (IsDefinition (stateAt functions events j).graph)
      ((stateAt functions events j).definitions.lookup x) (boundTo? functions events j x) :=
  lookup_forall₂ (definitions_boundLabels functions events j) x

theorem exists_lookup_of_boundTo? {j : Nat} {x y : String}
    (h : boundTo? functions events j x = some y) :
    ∃ id, (stateAt functions events j).definitions.lookup x = some id ∧
      IsDefinition (stateAt functions events j).graph id y := by
  have hrel := lookup_boundTo? functions events j x
  rw [h] at hrel
  generalize (stateAt functions events j).definitions.lookup x = found at hrel
  cases hrel with
  | some hdef => exact ⟨_, rfl, hdef⟩

theorem exists_boundTo?_of_lookup {j : Nat} {x : String} {id : NodeId}
    (h : (stateAt functions events j).definitions.lookup x = some id) :
    ∃ y, boundTo? functions events j x = some y ∧
      IsDefinition (stateAt functions events j).graph id y := by
  have hrel := lookup_boundTo? functions events j x
  rw [h] at hrel
  generalize boundTo? functions events j x = found at hrel
  cases hrel with
  | some hdef => exact ⟨_, rfl, hdef⟩

/-! ## 2. Edges between namesakes -/

/-- An edge leads from a definition of a name to a use of the same name. -/
def JoinsNamesakes (g : Graph) (e : Edge) : Prop :=
  ∃ x, IsDefinition g e.source x ∧ ∃ w ∈ g.nodes, w.id = e.target ∧ w.kind = .useSite ∧ w.label = x

/-- Every edge from a definition to a use joins nodes of one name. -/
def AllNamesakes (g : Graph) : Prop :=
  ∀ e ∈ g.edges, e.relation = some .defines → JoinsNamesakes g e

/-- No read has a name that was last bound to a node of another name. -/
def ReadsNamesakes (functions : List FunctionInfo) (events : List Event) : Prop :=
  ∀ j x line y, events[j]? = some (.read x line) → boundTo? functions events j x = some y → y = x

/-- **Edges join namesakes** exactly if no read has a name that was last bound to a node of another
name. -/
theorem synthesize_namesakes_iff (fe : FrontEnd) (functions : List FunctionInfo) (d : Document) :
    AllNamesakes (synthesize fe functions d) ↔
      ReadsNamesakes functions (fe.evaluate d d.root) := by
  obtain ⟨hs, hnodes, -, -⟩ := synthesize_shows fe functions d
  obtain ⟨huses, hdefines⟩ := mem_uses_synthesize fe functions d
  rw [flow_eq_evaluate] at hnodes huses hdefines
  generalize synthesize fe functions d = g at *
  generalize fe.evaluate d d.root = events at *
  -- what was there when an event was found is there at the end
  have hlast : ∀ {j e}, events[j]? = some e →
      ∀ v ∈ (stateAt functions events j).graph.nodes, v ∈ g.nodes := by
    intro j e he v hv
    have hle : j ≤ events.length := Nat.le_of_lt (List.getElem?_eq_some_iff.mp he).1
    exact hnodes v ((stateAt_mono hle).1 v hv)
  constructor
  · intro hall j x line y he hy
    obtain ⟨id, hid, v, hv, rfl, -, rfl⟩ := exists_lookup_of_boundTo? hy
    have hj := useAt_eq_some_iff.mpr ⟨x, line, v.id, he, lookup_stateAt.mp hid, rfl, rfl⟩
    obtain ⟨hedge, hrelation⟩ := (hdefines _).mpr ⟨j, _, hj⟩
    have huse := (mem_nodesOf.mp ((huses _).mpr ⟨j, _, hj⟩)).1
    obtain ⟨z, ⟨v', hv', hvid, -, rfl⟩, w, hw, hwid, -, hlabel⟩ := hall _ hedge hrelation
    rw [hs.eq_of_id_eq hv' (hlast he v hv) hvid, hs.eq_of_id_eq hw huse hwid] at hlabel
    exact hlabel.symm
  · intro hreads e hedge hrelation
    obtain ⟨j, u, hj⟩ := (hdefines e).mp ⟨hedge, hrelation⟩
    obtain ⟨x, line, id, he, hlatest, rfl, rfl⟩ := useAt_eq_some_iff.mp hj
    obtain ⟨y, hy, hdef⟩ := exists_boundTo?_of_lookup (lookup_stateAt.mpr hlatest)
    rw [hreads j x line y he hy] at hdef
    have huse := (mem_nodesOf.mp ((huses _).mpr ⟨j, _, hj⟩)).1
    exact ⟨x, hdef.mono (hlast he), _, huse, rfl, rfl, rfl⟩

/-! ## 3. Functions of one name and line -/

/-- Functions of one name and line are declared with the same parameters. -/
def DeclarationsAgree (functions : List FunctionInfo) (events : List Event) : Prop :=
  ∀ p ∈ declarations functions events, ∀ q ∈ declarations functions events, p.1 = q.1 → p.2 = q.2

/-- Then each is declared with its own parameters. -/
theorem DeclarationsAgree.declaredWith_eq (h : DeclarationsAgree functions events) {name : String}
    {line : Nat} {parameters : List String}
    (hown : ((name, line), parameters) ∈ declarations functions events) :
    declaredWith functions events name line = parameters := by
  cases hd : (declarations functions events).lookup (name, line) with
  | none =>
    have := lookup_isSome_iff_mem.mpr (List.mem_map_of_mem hown)
    rw [hd] at this
    cases this
  | some first =>
    obtain ⟨l, r, hl, -⟩ := List.lookup_eq_some_iff.mp hd
    rw [declaredWith, hd]
    exact h ((name, line), first) (by simp [hl]) _ hown rfl

/-- If functions of one name and line have the same parameters, every name is bound to nodes of
its own. -/
theorem readsNamesakes_of_agree (h : DeclarationsAgree functions events) :
    ReadsNamesakes functions events := by
  intro j x line y _ hy
  obtain ⟨l, r, hl, -⟩ := List.lookup_eq_some_iff.mp hy
  have hmem : (x, y) ∈ (events.take j).flatMap (boundLabels functions events) :=
    List.mem_reverse.mp (by simp [hl])
  obtain ⟨e, he, hxy⟩ := List.mem_flatMap.mp hmem
  have he := List.mem_of_mem_take he
  cases e with
  | define bound =>
    obtain ⟨rfl, rfl⟩ := Prod.mk.inj (List.mem_singleton.mp hxy)
    rfl
  | read name line => cases hxy
  | enter name line parameters =>
    have hown : ((name, line), parameters) ∈ declarations functions events :=
      List.mem_append_right _ (List.mem_filterMap.mpr ⟨_, he, rfl⟩)
    rw [boundLabels, h.declaredWith_eq hown, List.mem_iff_getElem?] at hxy
    obtain ⟨i, hi⟩ := hxy
    rw [List.getElem?_zip_eq_some] at hi
    exact Option.some.inj (hi.2.symm.trans hi.1)

/-- Functions of one name and line in a document have the same parameters. -/
def FunctionsAgree (fe : FrontEnd) (d : Document) : Prop :=
  ∀ n m name line ps qs, d.root.IsInside n → d.root.IsInside m →
    fe.IsFunction d n name line ps → fe.IsFunction d m name line qs → ps = qs

/-- What the walk of a document declares are functions of the document. -/
theorem exists_function_of_mem_declarations {fe : FrontEnd} {d : Document} (hfe : fe.IsLawful)
    (hdeclares : fe.DeclaresSteps) {limit labelLength : Nat} {p : (String × Nat) × List String}
    (hp : p ∈ declarations (Outline.build fe limit labelLength d).declarations.functions
      (fe.evaluate d d.root)) :
    ∃ n, d.root.IsInside n ∧ fe.IsFunction d n p.1.1 p.1.2 p.2 := by
  rcases List.mem_append.mp hp with hp | hp
  · obtain ⟨f, hf, rfl⟩ := List.mem_map.mp (List.mem_reverse.mp hp)
    obtain ⟨n, ds, hn, hds, hfds⟩ := Outline.exists_declares_of_mem_build hf
    exact ⟨n, hn, hdeclares d n ds f hds hfds⟩
  · obtain ⟨e, he, heq⟩ := List.mem_filterMap.mp hp
    cases e with
    | enter name line parameters =>
      obtain rfl := Option.some.inj heq
      exact exists_function_of_mem_evaluate hfe he
    | define bound => cases heq
    | read name line => cases heq

/-! ## 4. The data flow that a request is answered with -/

/-- **The data flow of a text that can be read joins namesakes** exactly if no read has a name that
was last bound to a node of another name; and it does if functions of one name and line have the
same parameters. -/
theorem run_namesakes_iff (p : Pipeline) (request : DiagramRequest)
    (hfind : p.registry.find request.language = .ok request.language.frontEnd)
    (hdiagram : request.diagram = .dataFlow) {d : Document}
    (hparse : request.language.frontEnd.parse (p.grammar request.language) request.source =
      .ok d) :
    ∃ v, p.run request = .ok v ∧
      (AllNamesakes v.graph ↔ ReadsNamesakes v.metadata.functions
        (request.language.frontEnd.evaluate d d.root)) ∧
      (FunctionsAgree request.language.frontEnd d → AllNamesakes v.graph) := by
  obtain ⟨v, hv, hdrawn⟩ := Pipeline.run_of_find p request hfind
  rw [Pipeline.drawing_of_ok p request hparse, hdiagram, Pipeline.draw] at hdrawn
  obtain ⟨hgraph, hrest⟩ := Prod.mk.inj hdrawn
  obtain ⟨hmetadata, -⟩ := Prod.mk.inj hrest
  have hiff : AllNamesakes v.graph ↔ ReadsNamesakes v.metadata.functions
      (request.language.frontEnd.evaluate d d.root) := by
    rw [hgraph, hmetadata]
    exact synthesize_namesakes_iff _ _ d
  refine ⟨v, hv, hiff, fun hagree => hiff.mpr (readsNamesakes_of_agree fun a ha b hb hab => ?_)⟩
  rw [hmetadata] at ha hb
  have hlawful := request.language.isLawful_frontEnd
  have hdeclares := request.language.declaresSteps_frontEnd
  obtain ⟨n, hn, hna⟩ := exists_function_of_mem_declarations hlawful hdeclares ha
  obtain ⟨m, hm, hmb⟩ := exists_function_of_mem_declarations hlawful hdeclares hb
  rw [← hab] at hmb
  exact hagree n m _ _ _ _ hn hm hna hmb

/-- The rows of a class on one line with a method that reads its parameter, up to the end of the
method; the class ends at a byte. -/
def readingMethod (stop : Nat) : List Tree.Record :=
  [⟨0, "program", 0, 0, stop, none⟩, ⟨1, "class_declaration", 0, 0, stop, none⟩,
   ⟨2, "class", 1, 0, 5, none⟩, ⟨2, "identifier", 0, 6, 7, "name"⟩,
   ⟨2, "class_body", 0, 8, stop, "body"⟩, ⟨3, "\x7b", 1, 8, 9, none⟩,
   ⟨3, "method_declaration", 0, 10, 33, none⟩, ⟨4, "void_type", 0, 10, 14, "type"⟩,
   ⟨4, "identifier", 0, 15, 16, "name"⟩, ⟨4, "formal_parameters", 0, 16, 23, "parameters"⟩,
   ⟨5, "(", 1, 16, 17, none⟩, ⟨5, "formal_parameter", 0, 17, 22, none⟩,
   ⟨6, "integral_type", 0, 17, 20, "type"⟩, ⟨7, "int", 1, 17, 20, none⟩,
   ⟨6, "identifier", 0, 21, 22, "name"⟩, ⟨5, ")", 1, 22, 23, none⟩,
   ⟨4, "block", 0, 24, 33, "body"⟩, ⟨5, "\x7b", 1, 24, 25, none⟩,
   ⟨5, "expression_statement", 0, 26, 31, none⟩, ⟨6, "method_invocation", 0, 26, 30, none⟩,
   ⟨7, "identifier", 0, 26, 27, "name"⟩, ⟨7, "argument_list", 0, 27, 30, "arguments"⟩,
   ⟨8, "(", 1, 27, 28, none⟩, ⟨8, "identifier", 0, 28, 29, none⟩, ⟨8, ")", 1, 29, 30, none⟩,
   ⟨6, ";", 1, 30, 31, none⟩, ⟨5, "\x7d", 1, 32, 33, none⟩]

/-- The text of a method that reads its parameter. -/
def oneMethod : Document where
  language := .java
  text := "class A \x7b void f(int a) \x7b g(a); \x7d \x7d"
  tree := (Tree.ofRecords? (readingMethod 35 ++ [⟨3, "\x7d", 1, 34, 35, none⟩])).getD default

/-- The same text with a second method of that name on the same line. -/
def twoMethods : Document where
  language := .java
  text := "class A \x7b void f(int a) \x7b g(a); \x7d void f(int b) \x7b \x7d \x7d"
  tree := (Tree.ofRecords? (readingMethod 53 ++
    [⟨3, "method_declaration", 0, 34, 51, none⟩, ⟨4, "void_type", 0, 34, 38, "type"⟩,
     ⟨4, "identifier", 0, 39, 40, "name"⟩, ⟨4, "formal_parameters", 0, 40, 47, "parameters"⟩,
     ⟨5, "(", 1, 40, 41, none⟩, ⟨5, "formal_parameter", 0, 41, 46, none⟩,
     ⟨6, "integral_type", 0, 41, 44, "type"⟩, ⟨7, "int", 1, 41, 44, none⟩,
     ⟨6, "identifier", 0, 45, 46, "name"⟩, ⟨5, ")", 1, 46, 47, none⟩,
     ⟨4, "block", 0, 48, 51, "body"⟩, ⟨5, "\x7b", 1, 48, 49, none⟩,
     ⟨5, "\x7d", 1, 50, 51, none⟩, ⟨3, "\x7d", 1, 52, 53, none⟩])).getD default

/-- The request for the data flow of a document. -/
def requestOf (d : Document) : DiagramRequest where
  source := d.text
  language := d.language
  diagram := .dataFlow

/-- The read of a parameter is linked to the parameter. -/
theorem run_namesakes_iff_oneMethod :
    ∃ v, (Pipeline.knowing oneMethod).run (requestOf oneMethod) = .ok v ∧ AllNamesakes v.graph ∧
      ⟨1, 2, some .defines⟩ ∈ v.graph.edges := by
  obtain ⟨v, hv, hiff, -⟩ := run_namesakes_iff (.knowing oneMethod) (requestOf oneMethod) rfl rfl
    (d := oneMethod) rfl
  have hshown : ((Pipeline.knowing oneMethod).run (requestOf oneMethod)).toOption.map
      (fun v => (v.metadata.functions, v.graph.edges)) =
        some ([⟨"f", 1, ["a"], some "void", []⟩],
          [⟨1, 0, some .uses⟩, ⟨1, 2, some .defines⟩]) := by decide +kernel
  have hevents : (requestOf oneMethod).language.frontEnd.evaluate oneMethod oneMethod.root =
      [.enter "f" 1 ["a"], .read "a" 1] := by decide +kernel
  rw [hv] at hshown
  obtain ⟨hfunctions, hedges⟩ := Prod.mk.inj (Option.some.inj hshown)
  refine ⟨v, hv, hiff.mpr ?_, hedges ▸ by decide⟩
  rw [hfunctions, hevents]
  intro j x line y hj hy
  match j with
  | 0 => cases hj
  | 1 =>
    obtain ⟨rfl, rfl⟩ := Event.read.inj (Option.some.inj hj)
    exact Option.some.inj (hy.symm.trans (by decide +kernel))

/-- Both methods are known by the same name and line, so entering the first binds its parameter to
that of the second, and the read of it is linked there. -/
theorem run_twoMethods_not_namesakes :
    ∃ v, (Pipeline.knowing twoMethods).run (requestOf twoMethods) = .ok v ∧
      ⟨3, 4, some .defines⟩ ∈ v.graph.edges ∧
      ⟨3, "parameter", .parameter, "b", some 1⟩ ∈ v.graph.nodes ∧
      ⟨4, "use", .useSite, "a", some 1⟩ ∈ v.graph.nodes ∧ ¬ AllNamesakes v.graph := by
  have hfind : (Pipeline.knowing twoMethods).registry.find (requestOf twoMethods).language =
      .ok Java.frontEnd := rfl
  obtain ⟨v, hv, -⟩ := Pipeline.run_of_find _ _ hfind
  have hshown : ((Pipeline.knowing twoMethods).run (requestOf twoMethods)).toOption.map (·.graph) =
      some {
        nodes := [
          ⟨0, "function", .function, "f", some 1⟩, ⟨1, "parameter", .parameter, "a", some 1⟩,
          ⟨2, "function", .function, "f", some 1⟩, ⟨3, "parameter", .parameter, "b", some 1⟩,
          ⟨4, "use", .useSite, "a", some 1⟩]
        edges := [⟨1, 0, some .uses⟩, ⟨3, 2, some .uses⟩, ⟨3, 4, some .defines⟩]
        nextId := 5 } := by decide +kernel
  rw [hv] at hshown
  have hgraph : v.graph = _ := Option.some.inj hshown
  refine ⟨v, hv, ?_⟩
  rw [hgraph]
  refine ⟨by decide, by decide, by decide, fun hall => ?_⟩
  obtain ⟨x, ⟨v, hv, hid, -, rfl⟩, w, hw, hwid, -, hlabel⟩ :=
    hall ⟨3, 4, some .defines⟩ (by decide) rfl
  simp only [List.mem_cons, List.not_mem_nil, or_false] at hv hw
  rcases hv with rfl | rfl | rfl | rfl | rfl <;> cases hid
  rcases hw with rfl | rfl | rfl | rfl | rfl <;> cases hwid
  exact absurd hlabel (by decide)

end CodeDiagram.DataFlow
