/-
# Names of declarations

A declaration has its name in a field, and evaluating the declaration should not read the name.
Whether it does is a matter of one step: an identifier is only ever led to by the node that it is a
child of (`FrontEnd.SparesIdentifiers`), for what a target leaves to be read is no identifier.  The
step of a declaration leads to its name in two kinds of Java only, which have no step of their own
(`Language.mem_ahead_name_iff`).
-/
import CodeDiagram.Proofs.FrontEnd.Steps

namespace CodeDiagram

open Syntax

/-! ## 1. Declarations -/

/-- A node of a kind that is labelled with the name that it declares. -/
def Language.IsDeclaration (l : Language) (n : Node) : Prop :=
  (l.frontEnd.classify n.kind).labelRule = .declaredName

/-- The kinds of declarations that are walked through as if they were none. -/
def Language.walksThrough : Language → String → Bool
  | .python, _ => false
  | .java, kind => kind == "annotation_type_declaration" || kind == "formal_parameter"

/-- Binding a target reads no identifier. -/
def FrontEnd.SparesIdentifiers (fe : FrontEnd) : Prop :=
  ∀ d t binding, ∀ m ∈ (fe.bindTargets d t binding).reads, m.kind ≠ "identifier"

/-- An identifier that a node leads to is a child of the node. -/
theorem mem_children_of_mem_ahead {fe : FrontEnd} (hfe : fe.IsLawful)
    (hspares : fe.SparesIdentifiers) {d : Document} {n c : Node} (h : c ∈ fe.ahead d n)
    (hc : c.kind = "identifier") : c ∈ n.children := by
  rcases mentions_or_reads_of_mem_ahead h with hm | ⟨t, -, binding, hm⟩
  · exact hfe.below hm
  · exact absurd hc (hspares d t binding c hm)

/-- A function leads to its body only. -/
theorem mem_body_of_mem_ahead {fe : FrontEnd} {d : Document} {n m : Node}
    {name : Except ExtractionFault String} {parameters : List String} {body : Option Node}
    (hstep : fe.flowStep d n = functionStep name parameters body) (h : m ∈ fe.ahead d n) :
    m ∈ body.toList := by
  rw [FrontEnd.ahead, hstep] at h
  cases name with
  | error e => cases h
  | ok name => exact h

/-- What is walked through leads to what is walked. -/
theorem ahead_of_walk {fe : FrontEnd} {d : Document} {n : Node} {children : List Node}
    (hstep : fe.flowStep d n = .walk children) : fe.ahead d n = children := by
  rw [FrontEnd.ahead, hstep]

/-- The name of a node is none of its other fields. -/
theorem not_mem_field?_of_name {n c : Node} (hc : n.field? "name" = some c) {field : String}
    (hfield : field ≠ "name") : c ∉ (n.field? field).toList := fun hmem =>
  Node.disjoint_field? hfield hmem (Option.mem_toList.mpr hc)

/-! ## 2. Java -/

namespace Java

theorem sparesIdentifiers : frontEnd.SparesIdentifiers := by
  intro d t binding m hm
  rw [frontEnd_bindTargets] at hm
  obtain ⟨rfl, hkind⟩ := eq_of_mem_reads hm
  exact hkind

/-- Declarations of types have a body, functions have parameters too, and variables are bound; two
kinds have no step of their own. -/
theorem kind_of_isDeclaration {n : Node} (h : Language.java.IsDeclaration n) :
    n.kind ∈ ["class_declaration", "record_declaration", "interface_declaration",
      "enum_declaration"] ∨
    n.kind ∈ ["method_declaration", "constructor_declaration",
      "compact_constructor_declaration"] ∨
    n.kind ∈ ["variable_declarator", "catch_formal_parameter"] ∨
    n.kind ∈ ["annotation_type_declaration", "formal_parameter"] := by
  rw [Language.IsDeclaration, Language.frontEnd_java, frontEnd_classify] at h
  unfold classify at h
  split at h <;> first
    | exact absurd h (by decide)
    | simp [*]

/-- Binding an identifier leaves nothing to be read. -/
theorem readsOf_identifier {d : Document} {c : Node} (hc : c.kind = "identifier")
    (binding : Binding) : frontEnd.readsOf d [c] binding = [] := by
  simp [FrontEnd.readsOf, frontEnd, bindTargets, hc]

/-- Of a type the body is walked. -/
theorem flowStep_type {d : Document} {n : Node}
    (h : n.kind ∈ ["class_declaration", "record_declaration", "interface_declaration",
      "enum_declaration"]) : frontEnd.flowStep d n = .walk (n.field? "body").toList := by
  rw [frontEnd_flowStep]
  simp only [List.mem_cons, List.not_mem_nil, or_false] at h
  rcases h with h | h | h | h <;> simp only [flowStep, h]

/-- A function is entered. -/
theorem flowStep_function {d : Document} {n : Node}
    (h : n.kind ∈ ["method_declaration", "constructor_declaration",
      "compact_constructor_declaration"]) :
    frontEnd.flowStep d n =
      functionStep (d.declaredName n) (parameters d n) (n.field? "body") := by
  rw [frontEnd_flowStep]
  simp only [List.mem_cons, List.not_mem_nil, or_false] at h
  rcases h with h | h | h <;> simp only [flowStep, h]

/-- What has no step of its own is walked through. -/
theorem flowStep_walksThrough {d : Document} {n : Node}
    (h : Language.java.walksThrough n.kind = true) :
    frontEnd.flowStep d n = .walk n.namedChildren := by
  rw [frontEnd_flowStep]
  simp only [Language.walksThrough, Bool.or_eq_true, beq_iff_eq] at h
  rcases h with h | h <;> simp [flowStep, h]

/-- **Where a declaration leads to its name**: if it has no step of its own. -/
theorem mem_ahead_name_iff {d : Document} {n c : Node} (hn : Language.java.IsDeclaration n)
    (hname : n.field? "name" = some c) (hc : c.kind = "identifier") :
    c ∈ frontEnd.ahead d n ↔ Language.java.walksThrough n.kind = true ∧ c.isNamed = true := by
  have hbody := not_mem_field?_of_name hname (show "body" ≠ "name" by decide)
  have hvalue := not_mem_field?_of_name hname (show "value" ≠ "name" by decide)
  have hnot : ∀ {kinds : List String}, n.kind ∈ kinds →
      (∀ kind ∈ kinds, Language.java.walksThrough kind = false) → ∀ {p : Prop},
        ¬ (Language.java.walksThrough n.kind = true ∧ p) := by
    rintro kinds hkind hall p ⟨hwalks, -⟩
    rw [hall _ hkind] at hwalks
    cases hwalks
  rcases kind_of_isDeclaration hn with hkind | hkind | hkind | hkind
  · -- a type: its body is walked
    refine iff_of_false ?_ (hnot hkind (by decide))
    rwa [ahead_of_walk (flowStep_type hkind)]
  · -- a function: its body is evaluated
    exact iff_of_false (fun h => hbody (mem_body_of_mem_ahead (flowStep_function hkind) h))
      (hnot hkind (by decide))
  · -- a variable: its name is bound
    refine iff_of_false ?_ (hnot hkind (by decide))
    simp only [List.mem_cons, List.not_mem_nil, or_false] at hkind
    rw [FrontEnd.ahead, frontEnd_flowStep]
    rcases hkind with h | h
    · simpa [flowStep, h, hname, readsOf_identifier hc] using hvalue
    · simp [flowStep, h, hname, readsOf_identifier hc]
  · -- no step of its own: all that is named is walked
    have hwalks : Language.java.walksThrough n.kind = true := by
      simp only [List.mem_cons, List.not_mem_nil, or_false] at hkind
      rcases hkind with h | h <;> rw [h] <;> rfl
    have hmem := Node.mem_children_of_field? hname
    rw [ahead_of_walk (flowStep_walksThrough hwalks), Node.namedChildren, List.mem_filter]
    exact ⟨fun h => ⟨hwalks, h.2⟩, fun h => ⟨hmem, h.2⟩⟩

/-- What a target leaves to be read is the target, so whatever a node leads to is a child of it. -/
theorem mem_children_of_mem_ahead {d : Document} {n c : Node} (h : c ∈ frontEnd.ahead d n) :
    c ∈ n.children := by
  rcases mentions_or_reads_of_mem_ahead h with hm | ⟨t, ht, binding, hm⟩
  · exact isLawful.below hm
  · rw [frontEnd_bindTargets] at hm
    rw [(eq_of_mem_reads hm).1]
    exact isLawful.below ht

end Java

/-! ## 3. Python -/

namespace Python

theorem sparesIdentifiers : frontEnd.SparesIdentifiers := by
  intro d t binding m hm
  rw [frontEnd_bindTargets] at hm
  simp only [bindTargets, List.mem_flatMap, List.mem_map] at hm
  obtain ⟨_, ⟨e, -, rfl⟩, hm⟩ := hm
  unfold bindOne at hm
  split at hm
  · cases hm
  · rename_i hkind
    split at hm
    · cases hm
    · rw [List.mem_singleton.mp hm]
      simpa using hkind

/-- Functions and classes are declared. -/
theorem kind_of_isDeclaration {n : Node} (h : Language.python.IsDeclaration n) :
    n.kind = "function_definition" ∨ n.kind = "class_definition" := by
  rw [Language.IsDeclaration, Language.frontEnd_python, frontEnd_classify] at h
  unfold classify at h
  split at h <;> first
    | exact absurd h (by decide)
    | simp [*]

/-- No declaration leads to its name. -/
theorem not_mem_ahead_name {d : Document} {n c : Node} (hn : Language.python.IsDeclaration n)
    (hname : n.field? "name" = some c) : c ∉ frontEnd.ahead d n := by
  have hbody := not_mem_field?_of_name hname (show "body" ≠ "name" by decide)
  have hbases := not_mem_field?_of_name hname (show "superclasses" ≠ "name" by decide)
  rcases kind_of_isDeclaration hn with h | h
  · have hfunction : frontEnd.flowStep d n =
        functionStep (d.declaredName n) (parameters d n) (n.field? "body") := by
      simp only [frontEnd_flowStep, flowStep, h]
    exact fun hmem => hbody (mem_body_of_mem_ahead hfunction hmem)
  · have hwalk : frontEnd.flowStep d n = .walk ((n.field? "superclasses").toList ++
        (n.field? "body").toList) := by
      simp only [frontEnd_flowStep, flowStep, h]
    rw [ahead_of_walk hwalk, List.mem_append, not_or]
    exact ⟨hbases, hbody⟩

end Python

/-! ## 4. Both languages -/

/-- In both languages binding a target reads no identifier. -/
theorem Language.sparesIdentifiers_frontEnd : ∀ l : Language, l.frontEnd.SparesIdentifiers
  | .python => Python.sparesIdentifiers
  | .java => Java.sparesIdentifiers

/-- **A declaration leads to its name** exactly if it is walked through and the name is named. -/
theorem Language.mem_ahead_name_iff (l : Language) {d : Document} {n c : Node}
    (hn : l.IsDeclaration n) (hname : n.field? "name" = some c) (hc : c.kind = "identifier") :
    c ∈ l.frontEnd.ahead d n ↔ l.walksThrough n.kind = true ∧ c.isNamed = true := by
  cases l with
  | python => exact iff_of_false (Python.not_mem_ahead_name hn hname) (by simp [walksThrough])
  | java => exact Java.mem_ahead_name_iff hn hname hc

end CodeDiagram
