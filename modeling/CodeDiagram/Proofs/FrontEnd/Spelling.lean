/-
# How names are spelled

A front end makes up no names: those of calls, functions, parameters and variables have no other
characters than the text that they are read from (`FrontEnd.SpellsNames`).  So it is with what is
declared in a document (`spells_of_declares`) and with what the walk finds in it
(`spells_of_mem_flow`).
-/
import CodeDiagram.FrontEnd.Registry
import CodeDiagram.Proofs.FrontEnd.Functions
import CodeDiagram.Proofs.Text.Characters

namespace CodeDiagram

open Syntax

/-! ## 1. Characters of a document -/

/-- A text has no other characters than that of a document. -/
def Syntax.Document.Spells (d : Document) (s : String) : Prop := Text.Within (· ∈ d.text.toList) s

section Fields

variable {d : Document} {n : Node} {field s : String}

theorem spells_of_textOf (h : d.textOf n = .ok s) : d.Spells s := by
  unfold Document.textOf at h
  split at h
  · rename_i t ht
    obtain rfl := Except.ok.inj h
    exact Text.Within.slice (fun _ hc => hc) ht
  · cases h

/-- What is cut from the text of a node is spelled like it. -/
theorem spells_of_map_textOf {f : List Char → List Char} (hf : ∀ cs, f cs ⊆ cs)
    (h : (d.textOf n).map (fun t => String.ofList (f t.toList)) = .ok s) : d.Spells s := by
  cases htext : d.textOf n with
  | error e =>
    rw [htext] at h
    cases h
  | ok t =>
    rw [htext] at h
    obtain rfl := Except.ok.inj h
    exact (spells_of_textOf htext).ofList_of_subset (hf _)

theorem spells_of_fieldText (h : d.fieldText n field = .ok s) : d.Spells s := by
  unfold Document.fieldText at h
  split at h
  · exact spells_of_textOf h
  · cases h

theorem spells_of_toOption {x : Except ExtractionFault String}
    (hx : ∀ t, x = .ok t → d.Spells t) (h : x.toOption = some s) : d.Spells s := by
  cases x with
  | error e => cases h
  | ok t =>
    obtain rfl := Option.some.inj h
    exact hx t rfl

theorem spells_of_textOf? (h : d.textOf? n = some s) : d.Spells s :=
  spells_of_toOption (fun _ => spells_of_textOf) h

theorem spells_of_fieldText? (h : d.fieldText? n field = some s) : d.Spells s :=
  spells_of_toOption (fun _ => spells_of_fieldText) h

end Fields

/-! ## 2. The law -/

/-- The names that a step speaks of, those that it binds aside. -/
def FlowStep.names : FlowStep → List String
  | .bind _ _ _ _ => []
  | .function name parameters _ => name :: parameters
  | .reference name => [name]
  | .walk _ => []
  | .skip => []

/-- A front end makes up no names. -/
structure FrontEnd.SpellsNames (fe : FrontEnd) : Prop where
  callee : ∀ {d n s}, fe.calleeName d n = some s → d.Spells s
  step : ∀ {d n s}, s ∈ (fe.flowStep d n).names → d.Spells s
  bound : ∀ {d t binding b}, b ∈ (fe.bindTargets d t binding).names → d.Spells b.name

theorem spells_of_mem_functionStep {d : Document} {n : Node} {parameters : List String}
    {body : Option Node} {s : String} (hparameters : ∀ p ∈ parameters, d.Spells p)
    (h : s ∈ (functionStep (d.declaredName n) parameters body).names) : d.Spells s := by
  unfold functionStep at h
  split at h
  · rename_i name hname
    rcases List.mem_cons.mp h with rfl | h
    · exact spells_of_fieldText hname
    · exact hparameters s h
  · cases h

theorem spells_of_mem_referenceStep {d : Document} {text : Except ExtractionFault String}
    {s : String} (htext : ∀ t, text = .ok t → d.Spells t)
    (h : s ∈ (referenceStep text).names) : d.Spells s := by
  unfold referenceStep at h
  split at h
  · rw [List.mem_singleton.mp h]
    exact htext _ rfl
  · cases h

/-! ## 3. Java -/

namespace Java

variable {d : Document} {n : Node} {s : String}

/-- The last part of a type name has characters of the name. -/
theorem spells_simpleTypeName (h : d.Spells s) : d.Spells (simpleTypeName s) := by
  refine Text.Within.ofList_of_subset h fun c hc => ?_
  have hlast := (List.takeWhile_sublist _).mem (List.mem_reverse.mp hc)
  exact (List.takeWhile_sublist _).mem (Text.trim_subset _ (List.mem_reverse.mp hlast))

theorem spells_of_calleeName (h : calleeName d n = some s) : d.Spells s := by
  unfold calleeName at h
  split at h
  · exact spells_of_fieldText? h
  · obtain ⟨t, ht, rfl⟩ := Option.map_eq_some_iff.mp h
    exact spells_simpleTypeName (spells_of_fieldText? ht)
  · cases h

theorem spells_of_parameterName? (h : parameterName? d n = some s) : d.Spells s := by
  unfold parameterName? at h
  split at h
  · exact spells_of_fieldText? h
  · obtain ⟨c, -, hc⟩ := Option.bind_eq_some_iff.mp h
    exact spells_of_fieldText? hc
  · cases h

theorem spells_of_mem_parameters (h : s ∈ parameters d n) : d.Spells s := by
  unfold parameters at h
  split at h
  · cases h
  · obtain ⟨c, -, hc⟩ := List.mem_filterMap.mp h
    exact spells_of_parameterName? hc

theorem spells_of_mem_flowStep (h : s ∈ (flowStep d n).names) : d.Spells s := by
  have htext : ∀ t, d.textOf n = .ok t → d.Spells t := fun _ => spells_of_textOf
  unfold flowStep at h
  dsimp only at h
  split at h <;> first
    | exact spells_of_mem_functionStep (fun _ => spells_of_mem_parameters) h
    | exact spells_of_mem_referenceStep htext h
    | cases h
    | skip
  · split at h
    · exact spells_of_mem_referenceStep (fun _ => spells_of_fieldText) h
    · cases h

theorem spells_of_mem_names {binding : Binding} {b : BoundName}
    (h : b ∈ (bindTargets d n binding).names) : d.Spells b.name := by
  unfold bindTargets at h
  split at h
  · obtain ⟨t, ht, rfl⟩ := Option.map_eq_some_iff.mp (Option.mem_toList.mp h)
    exact spells_of_textOf? ht
  · split at h
    · obtain ⟨t, ht, rfl⟩ := Option.map_eq_some_iff.mp (Option.mem_toList.mp h)
      exact spells_of_fieldText? ht
    · cases h

/-- **Java makes up no names.** -/
theorem spellsNames : frontEnd.SpellsNames :=
  ⟨spells_of_calleeName, spells_of_mem_flowStep, spells_of_mem_names⟩

end Java

/-! ## 4. Python -/

namespace Python

variable {d : Document} {n : Node} {s : String}

theorem spells_of_calleeName (h : calleeName d n = some s) : d.Spells s := by
  obtain ⟨c, -, hc⟩ := Option.bind_eq_some_iff.mp h
  split at hc
  · exact spells_of_textOf? hc
  · exact spells_of_fieldText? hc
  · cases hc

theorem spells_of_parameterName? (h : parameterName? d n = some s) : d.Spells s := by
  fun_induction parameterName? d n with
  | case1 n => exact spells_of_textOf? h
  | case2 n => exact spells_of_fieldText? h
  | case3 n => exact spells_of_fieldText? h
  -- annotated names, and the two kinds of stars
  | case4 n hkind inner rest hnamed hlt ih => exact ih h
  | case6 n hkind inner rest hnamed hlt ih => exact ih h
  | case8 n hkind inner rest hnamed hlt ih => exact ih h
  | case5 | case7 | case9 | case10 => cases h

theorem spells_of_mem_parameters (h : s ∈ parameters d n) : d.Spells s := by
  unfold parameters at h
  split at h
  · cases h
  · obtain ⟨c, -, hc⟩ := List.mem_filterMap.mp (List.mem_filter.mp h).1
    exact spells_of_parameterName? hc

theorem names_comprehensionStep : (comprehensionStep n).names = [] := by
  unfold comprehensionStep
  split <;> rfl

theorem names_exceptStep : (exceptStep n).names = [] := by
  unfold exceptStep
  dsimp only
  split <;> rfl

theorem spells_of_mem_flowStep (h : s ∈ (flowStep d n).names) : d.Spells s := by
  have htext : ∀ t, d.textOf n = .ok t → d.Spells t := fun _ => spells_of_textOf
  unfold flowStep at h
  dsimp only at h
  split at h <;> first
    | exact spells_of_mem_functionStep (fun _ => spells_of_mem_parameters) h
    | exact spells_of_mem_referenceStep htext h
    | rw [names_comprehensionStep] at h; cases h
    | rw [names_exceptStep] at h; cases h
    | cases h
    | skip
  · split at h
    · exact spells_of_mem_referenceStep htext h
    · cases h

theorem spells_of_mem_names {binding : Binding} {b : BoundName}
    (h : b ∈ (bindTargets d n binding).names) : d.Spells b.name := by
  simp only [bindTargets, List.mem_flatMap, List.mem_map] at h
  obtain ⟨_, ⟨e, -, rfl⟩, hb⟩ := h
  unfold bindOne at hb
  split at hb
  · obtain ⟨t, ht, rfl⟩ := Option.map_eq_some_iff.mp (Option.mem_toList.mp hb)
    exact spells_of_textOf? ht
  · split at hb
    · obtain ⟨t, ht, rfl⟩ := Option.map_eq_some_iff.mp (Option.mem_toList.mp hb)
      exact spells_of_textOf? ht
    · cases hb

/-- **Python makes up no names.** -/
theorem spellsNames : frontEnd.SpellsNames :=
  ⟨spells_of_calleeName, spells_of_mem_flowStep, spells_of_mem_names⟩

end Python

/-! ## 5. Both languages -/

/-- Neither front end makes up names. -/
theorem Language.spellsNames_frontEnd : ∀ l : Language, l.frontEnd.SpellsNames
  | .python => Python.spellsNames
  | .java => Java.spellsNames

/-- The names that an event speaks of. -/
def Event.names : Event → List String
  | .enter name _ parameters => name :: parameters
  | .define bound => [bound.name]
  | .read name _ => [name]

variable {fe : FrontEnd} {d : Document} {s : String}

theorem FrontEnd.SpellsNames.findings (hfe : fe.SpellsNames) {n : Node} {e : Event}
    (he : e ∈ fe.findings d n) (h : s ∈ e.names) : d.Spells s := by
  have hstep := @hfe.step d n s
  unfold FrontEnd.findings at he
  cases hflow : fe.flowStep d n with
  | bind values targets binding next =>
    rw [hflow] at he
    obtain ⟨b, hb, rfl⟩ := List.mem_map.mp he
    obtain ⟨t, -, hbt⟩ := List.mem_flatMap.mp hb
    rw [List.mem_singleton.mp h]
    exact hfe.bound hbt
  | function name parameters body =>
    rw [hflow] at he hstep
    rw [List.mem_singleton.mp he] at h
    exact hstep h
  | reference name =>
    rw [hflow] at he hstep
    rw [List.mem_singleton.mp he] at h
    exact hstep h
  | walk children =>
    rw [hflow] at he
    cases he
  | skip =>
    rw [hflow] at he
    cases he

/-- **The names that the walk finds** are spelled in the text. -/
theorem spells_of_mem_flow (hfe : fe.SpellsNames) {e : Event} (he : e ∈ d.flow fe)
    (h : s ∈ e.names) : d.Spells s := by
  rw [flow_eq_evaluate] at he
  obtain ⟨n, -, hn⟩ := mem_evaluate_iff.mp he
  exact hfe.findings hn h

/-- **The names of declared functions** and of their parameters are spelled in the text. -/
theorem spells_of_declares (hfe : fe.SpellsNames) (hdeclares : fe.DeclaresSteps) {n : Node}
    {ds : Declarations} {f : FunctionInfo} (hds : fe.declarations d n = .ok ds)
    (hf : f ∈ ds.functions) (h : s ∈ f.name :: f.parameters) : d.Spells s := by
  obtain ⟨-, body, hstep⟩ := hdeclares d n ds f hds hf
  refine hfe.step (n := n) ?_
  rw [hstep]
  exact h

end CodeDiagram
