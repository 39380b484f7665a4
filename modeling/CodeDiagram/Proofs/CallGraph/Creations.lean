/-
# Calls of constructors

Creating an object calls a constructor, and a constructor is declared by the simple name of its
type.  The call is linked to it if the name that is cut out of the type is the simple name, and that
is so exactly if no blank stands between the last dot of the type and its last name
(`creation_calls_simpleName_iff`).  With a blank there the name starts with the blank, which no
declared name does, and the call is linked to nothing.
-/
import CodeDiagram.Proofs.CallGraph.Calls
import CodeDiagram.Proofs.FrontEnd.TypeNames
import CodeDiagram.Syntax.Recorded

namespace CodeDiagram.CallGraph

open Syntax
open Text (isBlank)

variable {fe : FrontEnd} {d : Document} {functions : List FunctionInfo} {n : Node} {p : List Nat}
  {callee : String}

/-! ## 1. One call -/

/-- What stands at a path is drawn as a call: an edge leads to the function that is called from the
function around it, if that is another one and is declared, or from the global caller if there is
no function around it. -/
structure IsDrawn (fe : FrontEnd) (functions : List FunctionInfo) (d : Document) (p : List Nat)
    (callee : String) : Prop where
  inside : ∀ f name, fe.enclosing? d.root p = some f → d.declaredName f = .ok name →
    name ∈ functions.map (·.name) → name ≠ callee →
      ∃ v ∈ (synthesize fe functions (some d)).nodesOf .function, v.label = name ∧
        ∃ w ∈ (synthesize fe functions (some d)).nodesOf .function, w.label = callee ∧
          ⟨v.id, w.id, some .calls⟩ ∈ (synthesize fe functions (some d)).edges
  outside : fe.enclosing? d.root p = none →
    ∃ v ∈ (synthesize fe functions (some d)).nodesOf .globalCaller,
      ∃ w ∈ (synthesize fe functions (some d)).nodesOf .function, w.label = callee ∧
        ⟨v.id, w.id, some .calls⟩ ∈ (synthesize fe functions (some d)).edges

/-- **A call of a declared function is drawn.** -/
theorem isDrawn_of_calleeName (hn : d.root.at? p = some n) (hcall : fe.classify n.kind = .call)
    (hcallee : fe.calleeName d n = some callee) (hdeclared : callee ∈ functions.map (·.name)) :
    IsDrawn fe functions d p callee := by
  obtain ⟨hk, hl⟩ := wired_linked fe functions d
  have hne : functions ≠ [] := by
    rintro rfl
    cases hdeclared
  have hgraph : synthesize fe functions (some d) =
      (wired fe functions (some d)).graph.retainConnected := by
    rw [synthesize, if_neg (by simpa using hne)]
  generalize wired fe functions (some d) = c at hk hl hgraph
  have hfunctions := hk.nodesOf_function_retainConnected
  have hedges : c.graph.retainConnected.edges = c.graph.edges := rfl
  obtain ⟨w, ⟨hw, rfl⟩, -⟩ := hk.existsUnique_function hdeclared
  constructor
  · intro f name hf hname hknown hother
    obtain ⟨v, ⟨hv, rfl⟩, -⟩ := hk.existsUnique_function hknown
    rw [hgraph, hfunctions, hedges]
    exact ⟨v, hv, rfl, w, hw, rfl, (calls_between_iff hk hl hv hw).mpr
      ⟨hother, f, ⟨p, n, hn, hcall, hcallee, hf⟩, hname⟩⟩
  · intro hf
    obtain ⟨v, hv, hedge⟩ := (calls_outside_iff hk hl hw).mpr ⟨p, n, hn, hcall, hcallee, hf⟩
    rw [hgraph, hfunctions, hedges, Graph.nodesOf_retainConnected]
    have htouched := Graph.touches_iff.mpr ⟨_, hedge, Or.inl rfl⟩
    exact ⟨v, List.mem_filter.mpr ⟨hv, htouched⟩, w, hw, rfl, hedge⟩

/-- **A call of what is not declared is linked to nothing.** -/
theorem linkAt_eq_self {c : CallGraph} {names : List String} (hk : c.Knows names)
    (hcallee : fe.calleeName d n = some callee) (hunknown : callee ∉ names) (scope : Scope) :
    c.linkAt fe d scope n = c := by
  have hlookup : c.functions.lookup callee = none := by
    rw [← Option.not_isSome_iff_eq_none, lookup_isSome_iff_mem, hk.names]
    exact hunknown
  unfold linkAt FrontEnd.callSite?
  split
  · rename_i site hsite
    split at hsite
    · obtain rfl := Option.some.inj hsite
      simp [link, hcallee, hlookup]
    · cases hsite
  · rfl

/-- What is drawn as a call of a function is a call of it. -/
theorem IsDrawn.callAt (h : IsDrawn fe functions d p callee) {f : Node} {name : String}
    (hf : fe.enclosing? d.root p = some f) (hname : d.declaredName f = .ok name)
    (hknown : name ∈ functions.map (·.name)) (hother : name ≠ callee) :
    ∃ around, CallAt fe d callee around := by
  obtain ⟨v, hv, -, w, hw, rfl, hedge⟩ := h.inside f name hf hname hknown hother
  have hne : functions ≠ [] := by
    rintro rfl
    cases hknown
  have hgraph := synthesize_isCallGraphOf fe functions d hne
  obtain ⟨-, g, hcall, -⟩ := (hgraph.between v hv w hw).mp hedge
  exact ⟨some g, hcall⟩

/-- A name is called only if a call inside the document calls it. -/
theorem not_callAt (h : ∀ n ∈ d.root.inside, fe.classify n.kind = .call →
    fe.calleeName d n ≠ some callee) {around : Option Node} : ¬ CallAt fe d callee around := by
  rintro ⟨p, n, hn, hcall, hcallee, -⟩
  exact h n (Node.mem_inside (Node.isInside_of_at? hn)) hcall hcallee

/-! ## 2. Created objects -/

/-- An object is created where a node has the kind and the type for it. -/
theorem exists_isCreation {T : Java.TypeName}
    (h : (d.root.at? p).map (fun n => (n.kind, d.fieldText? n "type")) =
      some ("object_creation_expression", some (String.ofList T.text))) :
    ∃ n, d.root.at? p = some n ∧ Java.IsCreation d n T := by
  obtain ⟨n, hn, hpair⟩ := Option.map_eq_some_iff.mp h
  obtain ⟨hkind, htype⟩ := Prod.mk.inj hpair
  exact ⟨n, hn, hkind, htype⟩

/-- **Creating an object calls the constructor of the simple name** of its type exactly if no blank
stands between the last dot and the last name. -/
theorem creation_calls_simpleName_iff {T : Java.TypeName} (h : Java.IsCreation d n T) :
    (Java.calleeName d n = some T.simpleName ↔ T.gap = []) ∧
    ∀ functions : List FunctionInfo, T.simpleName ∈ functions.map (·.name) →
      (T.gap = [] → ∀ p, d.root.at? p = some n →
        IsDrawn Java.frontEnd functions d p T.simpleName) ∧
      (T.gap ≠ [] → (∀ f ∈ functions, ∀ c ∈ f.name.toList.head?, isBlank c = false) →
        ∀ c : CallGraph, c.Knows (functions.map (·.name)) →
          ∀ scope, c.linkAt Java.frontEnd d scope n = c) := by
  refine ⟨h.calleeName_eq_iff, fun functions hdeclared => ⟨?_, ?_⟩⟩
  · intro hgap p hn
    have hcall : Java.frontEnd.classify n.kind = .call := by
      rw [h.kind]
      rfl
    exact isDrawn_of_calleeName hn hcall (h.calleeName_eq_iff.mpr hgap) hdeclared
  · intro hgap hnames c hk scope
    refine linkAt_eq_self hk h.calleeName (fun hmem => ?_) scope
    obtain ⟨f, hf, hname⟩ := List.mem_map.mp hmem
    -- the name would start with the blank
    have hhead := hnames f hf
    have hblank := T.isBlankText_gap
    rw [hname, String.toList_ofList] at hhead
    cases hstart : T.gap with
    | nil => exact hgap hstart
    | cons b rest =>
      rw [hstart] at hhead hblank
      have hb : isBlank b = true := List.all_eq_true.mp hblank b List.mem_cons_self
      rw [hhead b rfl] at hb
      cases hb

/-- The functions of the text, the constructor of the class and the method. -/
def declared : List FunctionInfo :=
  [{ name := "A", line := 1, parameters := [] }, { name := "f", line := 1, parameters := [] }]

/-- Where the object is created. -/
def creationPath : List Nat := [0, 1, 1, 3, 0, 0]

/-- A class with a constructor, and a method that creates an object of the class, whose type has
qualifiers, blanks and nested arguments. -/
def nestedCreation : Document where
  language := .java
  text := "class A \x7b A() \x7b \x7d void f() \x7b new p .q.A <B<C>>(); \x7d \x7d"
  tree := (Tree.ofRecords? [
    ⟨0, "program", 0, 0, 53, none⟩, ⟨1, "class_declaration", 0, 0, 53, none⟩,
    ⟨2, "class", 1, 0, 5, none⟩, ⟨2, "identifier", 0, 6, 7, "name"⟩,
    ⟨2, "class_body", 0, 8, 53, "body"⟩, ⟨3, "\x7b", 1, 8, 9, none⟩,
    ⟨3, "constructor_declaration", 0, 10, 17, none⟩, ⟨4, "identifier", 0, 10, 11, "name"⟩,
    ⟨4, "formal_parameters", 0, 11, 13, "parameters"⟩, ⟨5, "(", 1, 11, 12, none⟩,
    ⟨5, ")", 1, 12, 13, none⟩, ⟨4, "constructor_body", 0, 14, 17, "body"⟩,
    ⟨5, "\x7b", 1, 14, 15, none⟩, ⟨5, "\x7d", 1, 16, 17, none⟩,
    ⟨3, "method_declaration", 0, 18, 51, none⟩, ⟨4, "void_type", 0, 18, 22, "type"⟩,
    ⟨4, "identifier", 0, 23, 24, "name"⟩, ⟨4, "formal_parameters", 0, 24, 26, "parameters"⟩,
    ⟨5, "(", 1, 24, 25, none⟩, ⟨5, ")", 1, 25, 26, none⟩, ⟨4, "block", 0, 27, 51, "body"⟩,
    ⟨5, "\x7b", 1, 27, 28, none⟩, ⟨5, "expression_statement", 0, 29, 49, none⟩,
    ⟨6, "object_creation_expression", 0, 29, 48, none⟩, ⟨7, "new", 1, 29, 32, none⟩,
    ⟨7, "generic_type", 0, 33, 46, "type"⟩, ⟨8, "scoped_type_identifier", 0, 33, 39, none⟩,
    ⟨9, "scoped_type_identifier", 0, 33, 37, none⟩, ⟨10, "type_identifier", 0, 33, 34, none⟩,
    ⟨10, ".", 1, 35, 36, none⟩, ⟨10, "type_identifier", 0, 36, 37, none⟩, ⟨9, ".", 1, 37, 38, none⟩,
    ⟨9, "type_identifier", 0, 38, 39, none⟩, ⟨8, "type_arguments", 0, 40, 46, none⟩,
    ⟨9, "<", 1, 40, 41, none⟩, ⟨9, "generic_type", 0, 41, 45, none⟩,
    ⟨10, "type_identifier", 0, 41, 42, none⟩, ⟨10, "type_arguments", 0, 42, 45, none⟩,
    ⟨11, "<", 1, 42, 43, none⟩, ⟨11, "type_identifier", 0, 43, 44, none⟩,
    ⟨11, ">", 1, 44, 45, none⟩, ⟨9, ">", 1, 45, 46, none⟩,
    ⟨7, "argument_list", 0, 46, 48, "arguments"⟩, ⟨8, "(", 1, 46, 47, none⟩,
    ⟨8, ")", 1, 47, 48, none⟩, ⟨6, ";", 1, 48, 49, none⟩, ⟨5, "\x7d", 1, 50, 51, none⟩,
    ⟨3, "\x7d", 1, 52, 53, none⟩]).getD default

/-- The type `p .q.A <B<C>>`. -/
def nestedName : Java.TypeName where
  qualifiers := [⟨[], ['p'], [' '], rfl, rfl, by decide⟩, ⟨[], ['q'], [], rfl, rfl, by decide⟩]
  last := ⟨[], ['A'], [' '], rfl, rfl, by decide⟩
  arguments := some ['B', '<', 'C', '>']
  nested := by
    have hC : Java.Nested ['C'] := .char (by decide) (by decide) .nil
    simpa using Java.Nested.char (by decide) (by decide) (.angle hC .nil)

theorem creation_calls_simpleName_iff_nested :
    ∃ n : Node, nestedCreation.root.at? creationPath = some n ∧
      Java.IsCreation nestedCreation n nestedName ∧
      Java.calleeName nestedCreation n = some "A" ∧
      IsDrawn Java.frontEnd declared nestedCreation creationPath "A" := by
  obtain ⟨n, hn, h⟩ : ∃ n, nestedCreation.root.at? creationPath = some n ∧
      Java.IsCreation nestedCreation n nestedName := exists_isCreation (by decide +kernel)
  have hdrawn := (creation_calls_simpleName_iff h).2 declared (by decide)
  exact ⟨n, hn, h, (creation_calls_simpleName_iff h).1.mpr rfl, hdrawn.1 rfl creationPath hn⟩

/-- The same class and method, where the type has a blank behind its dot. -/
def spacedCreation : Document where
  language := .java
  text := "class A \x7b A() \x7b \x7d void f() \x7b new p. A(); \x7d \x7d"
  tree := (Tree.ofRecords? [
    ⟨0, "program", 0, 0, 44, none⟩, ⟨1, "class_declaration", 0, 0, 44, none⟩,
    ⟨2, "class", 1, 0, 5, none⟩, ⟨2, "identifier", 0, 6, 7, "name"⟩,
    ⟨2, "class_body", 0, 8, 44, "body"⟩, ⟨3, "\x7b", 1, 8, 9, none⟩,
    ⟨3, "constructor_declaration", 0, 10, 17, none⟩, ⟨4, "identifier", 0, 10, 11, "name"⟩,
    ⟨4, "formal_parameters", 0, 11, 13, "parameters"⟩, ⟨5, "(", 1, 11, 12, none⟩,
    ⟨5, ")", 1, 12, 13, none⟩, ⟨4, "constructor_body", 0, 14, 17, "body"⟩,
    ⟨5, "\x7b", 1, 14, 15, none⟩, ⟨5, "\x7d", 1, 16, 17, none⟩,
    ⟨3, "method_declaration", 0, 18, 42, none⟩, ⟨4, "void_type", 0, 18, 22, "type"⟩,
    ⟨4, "identifier", 0, 23, 24, "name"⟩, ⟨4, "formal_parameters", 0, 24, 26, "parameters"⟩,
    ⟨5, "(", 1, 24, 25, none⟩, ⟨5, ")", 1, 25, 26, none⟩, ⟨4, "block", 0, 27, 42, "body"⟩,
    ⟨5, "\x7b", 1, 27, 28, none⟩, ⟨5, "expression_statement", 0, 29, 40, none⟩,
    ⟨6, "object_creation_expression", 0, 29, 39, none⟩, ⟨7, "new", 1, 29, 32, none⟩,
    ⟨7, "scoped_type_identifier", 0, 33, 37, "type"⟩, ⟨8, "type_identifier", 0, 33, 34, none⟩,
    ⟨8, ".", 1, 34, 35, none⟩, ⟨8, "type_identifier", 0, 36, 37, none⟩,
    ⟨7, "argument_list", 0, 37, 39, "arguments"⟩, ⟨8, "(", 1, 37, 38, none⟩,
    ⟨8, ")", 1, 38, 39, none⟩, ⟨6, ";", 1, 39, 40, none⟩, ⟨5, "\x7d", 1, 41, 42, none⟩,
    ⟨3, "\x7d", 1, 43, 44, none⟩]).getD default

/-- The type `p. A`. -/
def spacedName : Java.TypeName where
  qualifiers := [⟨[], ['p'], [], rfl, rfl, by decide⟩]
  last := ⟨[' '], ['A'], [], rfl, rfl, by decide⟩
  nested := by simp

/-- **With a blank behind the dot** the constructor is not what is called, and no edge is drawn. -/
theorem spacedCreation_unlinked :
    ∃ (n : Node) (T : Java.TypeName), spacedCreation.root.at? creationPath = some n ∧
      Java.IsCreation spacedCreation n T ∧ T.simpleName = "A" ∧ "A" ∈ declared.map (·.name) ∧
      Java.calleeName spacedCreation n ≠ some T.simpleName ∧
      ¬ IsDrawn Java.frontEnd declared spacedCreation creationPath "A" := by
  obtain ⟨n, hn, h⟩ : ∃ n, spacedCreation.root.at? creationPath = some n ∧
      Java.IsCreation spacedCreation n spacedName := exists_isCreation (by decide +kernel)
  obtain ⟨f, hf, hname⟩ : ∃ f, Java.frontEnd.enclosing? spacedCreation.root creationPath = some f ∧
      (spacedCreation.declaredName f).toOption = some "f" :=
    Option.map_eq_some_iff.mp (by decide +kernel)
  refine ⟨n, spacedName, hn, h, rfl, by decide, ?_, fun hdrawn => ?_⟩
  · rw [Ne, h.calleeName_eq_iff]
    decide
  · -- no call in the document is one of `A`
    obtain ⟨around, hcall⟩ :=
      hdrawn.callAt hf (toOption_eq_some_iff.mp hname) (by decide) (by decide)
    exact not_callAt (by decide +kernel) hcall

end CodeDiagram.CallGraph
