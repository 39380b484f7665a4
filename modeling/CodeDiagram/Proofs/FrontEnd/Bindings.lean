/-
# What is bound where

A name is met twice where it is bound: it is collected with the outline, and the walk defines it.
Three laws hold of both languages.  No step binds a name as a parameter
(`Language.bindsNoParameter_frontEnd`); what a node declares as bound are the parameters of the
functions that it declares and the names that its step binds
(`Language.declaresBindings_frontEnd`); and a function that is entered at a node is declared by it
(`Language.declaresEntered_frontEnd`).
-/
import CodeDiagram.Proofs.DataFlow.Findings
import CodeDiagram.Proofs.FrontEnd.Declarations
import CodeDiagram.Proofs.FrontEnd.Rereading

namespace CodeDiagram

open Syntax

/-! ## 1. The laws -/

/-- The names that the step at a node binds, as variables. -/
def FrontEnd.bound (fe : FrontEnd) (d : Document) (n : Node) : List VariableInfo :=
  boundVariables fe.bindTargets d (fe.flowStep d n)

/-- No step binds a name as a parameter. -/
def FrontEnd.BindsNoParameter (fe : FrontEnd) : Prop :=
  ∀ d n, ∀ v ∈ fe.bound d n, v.binding ≠ .parameter

/-- A node declares the parameters of its functions and the names that its step binds. -/
def FrontEnd.DeclaresBindings (fe : FrontEnd) : Prop :=
  ∀ d n, (fe.declared d n).bindings =
    (fe.declared d n).functions.flatMap parameterVariables ++ fe.bound d n

/-- A function that is entered at a node is declared by the node. -/
def FrontEnd.DeclaresEntered (fe : FrontEnd) : Prop :=
  ∀ d n name ps body, fe.flowStep d n = .function name ps body →
    ∃ f ∈ (fe.declared d n).functions, f.name = name ∧ f.line = d.line n

/-- A step that binds nothing has no bound variables. -/
theorem boundVariables_of_ne_bind {bindTargets : Document → Node → Binding → BindTargets}
    {d : Document} {step : FlowStep}
    (h : ∀ values targets binding next, step ≠ .bind values targets binding next) :
    boundVariables bindTargets d step = [] := by
  cases step with
  | bind values targets binding next => exact absurd rfl (h values targets binding next)
  | function name parameters body => rfl
  | reference name => rfl
  | walk children => rfl
  | skip => rfl

/-- No name is bound as a parameter if neither steps nor targets do so. -/
theorem FrontEnd.bindsNoParameter_of {fe : FrontEnd}
    (hstep : ∀ {d n values targets binding next},
      fe.flowStep d n = .bind values targets binding next → binding ≠ .parameter)
    (hnames : ∀ {d t binding b}, b ∈ (fe.bindTargets d t binding).names →
      b.binding = binding ∨ b.binding = .field) : fe.BindsNoParameter := by
  intro d n v hv
  unfold FrontEnd.bound boundVariables at hv
  split at hv
  · rename_i hbind
    obtain ⟨b, hb, rfl⟩ := List.mem_map.mp hv
    obtain ⟨t, -, hbt⟩ := List.mem_flatMap.mp hb
    rcases hnames hbt with he | he
    · exact fun hp => hstep hbind (he.symm.trans hp)
    · exact fun hp => Binding.noConfusion (he.symm.trans hp)
  · cases hv

/-- A node whose step binds nothing declares what it binds, if it declares no other variables than
parameters. -/
theorem bindings_of_bind {fe : FrontEnd} {d : Document} {n : Node} {α : Type}
    {x : Except ExtractionFault α} {g : α → Declarations}
    (h : fe.declarations d n = (x >>= fun a => pure (g a)))
    (hg : ∀ a, (g a).bindings = (g a).functions.flatMap parameterVariables)
    (hstep : ∀ values targets binding next,
      fe.flowStep d n ≠ .bind values targets binding next) :
    (fe.declared d n).bindings =
      (fe.declared d n).functions.flatMap parameterVariables ++ fe.bound d n := by
  rw [FrontEnd.bound, boundVariables_of_ne_bind hstep, List.append_nil, FrontEnd.declared, h]
  cases x with
  | error e => rfl
  | ok a => exact hg a

theorem bindings_functionDeclarations (f : FunctionInfo) : (functionDeclarations f).bindings =
    (functionDeclarations f).functions.flatMap parameterVariables := by
  rw [functionDeclarations, List.flatMap_singleton]

theorem functionStep_eq_function {x : Except ExtractionFault String} {ps qs : List String}
    {body : Option Node} {name : String} {nodes : List Node}
    (h : functionStep x ps body = .function name qs nodes) : x = .ok name := by
  unfold functionStep at h
  split at h
  · cases h
    rfl
  · cases h

theorem referenceStep_ne_function {x : Except ExtractionFault String} {name : String}
    {ps : List String} {nodes : List Node} : referenceStep x ≠ .function name ps nodes := by
  unfold referenceStep
  split <;> exact FlowStep.noConfusion

/-- A function whose declarations are those of what is known of it is declared. -/
theorem exists_function_of_info {fe : FrontEnd} {d : Document} {n : Node}
    (info : Except ExtractionFault FunctionInfo) {f : FunctionInfo}
    (h : fe.declarations d n = (info >>= fun f => pure (functionDeclarations f)))
    (hinfo : info = .ok f) (hline : f.line = d.line n) :
    ∃ g ∈ (fe.declared d n).functions, g.name = f.name ∧ g.line = d.line n := by
  rw [FrontEnd.declared, h, hinfo]
  exact ⟨f, List.mem_singleton_self f, rfl, hline⟩

/-- The variables that an event binds for a name of its own. -/
def Event.bound : Event → List VariableInfo
  | .define b => [⟨b.name, b.line, b.binding⟩]
  | .enter _ _ _ => []
  | .read _ _ => []

/-- What the walk finds to be bound at a node is what the step at the node binds. -/
theorem bound_findings (fe : FrontEnd) (d : Document) (n : Node) :
    (fe.findings d n).flatMap Event.bound = fe.bound d n := by
  unfold FrontEnd.findings FrontEnd.bound boundVariables
  cases fe.flowStep d n with
  | bind values targets binding next =>
    rw [List.flatMap_map]
    exact List.flatMap_pure_eq_map _ _
  | function name parameters body => rfl
  | reference name => rfl
  | walk children => rfl
  | skip => rfl

/-! ## 2. Java -/

namespace Java

variable {d : Document} {n : Node}

/-- An assignment target binds names as its statement does, or as fields. -/
theorem binding_of_mem_names {t : Node} {binding : Binding} {b : BoundName}
    (h : b ∈ (bindTargets d t binding).names) : b.binding = binding ∨ b.binding = .field := by
  unfold bindTargets at h
  split at h
  · obtain ⟨_, -, rfl⟩ := Option.map_eq_some_iff.mp (Option.mem_toList.mp h)
    exact Or.inl rfl
  · split at h
    · obtain ⟨_, -, rfl⟩ := Option.map_eq_some_iff.mp (Option.mem_toList.mp h)
      exact Or.inr rfl
    · cases h

theorem declaratorBinding_ne_parameter (n : Node) : declaratorBinding n ≠ .parameter := by
  unfold declaratorBinding
  split
  · split <;> exact Binding.noConfusion
  · exact Binding.noConfusion

theorem binding_ne_parameter {values targets : List Node} {binding : Binding} {next : List Node}
    (h : flowStep d n = .bind values targets binding next) : binding ≠ .parameter := by
  unfold flowStep at h
  dsimp only at h
  split at h <;> first
    | exact absurd h functionStep_ne_bind
    | exact absurd h referenceStep_ne_bind
    | exact FlowStep.noConfusion h
    | skip
  · cases h
    exact declaratorBinding_ne_parameter n
  -- assignments, loops over collections and caught exceptions
  iterate 3
    cases h
    exact Binding.noConfusion
  · split at h
    · exact absurd h referenceStep_ne_bind
    · exact FlowStep.noConfusion h

theorem bindsNoParameter : frontEnd.BindsNoParameter :=
  FrontEnd.bindsNoParameter_of binding_ne_parameter binding_of_mem_names

/-- **Java declares what it binds.** -/
theorem declaresBindings : frontEnd.DeclaresBindings := by
  intro d n
  have hdeclared : frontEnd.declarations d n = declarations d n := by rw [frontEnd_declarations]
  unfold declarations at hdeclared
  split at hdeclared
  -- three kinds of methods, four of types, imports, and all the rest
  iterate 3
    rename_i hkind
    refine bindings_of_bind hdeclared bindings_functionDeclarations fun _ _ _ _ => ?_
    simp only [frontEnd_flowStep, flowStep, hkind]
    exact functionStep_ne_bind
  iterate 5
    rename_i hkind
    refine bindings_of_bind hdeclared (fun _ => rfl) fun _ _ _ _ => ?_
    simp only [frontEnd_flowStep, flowStep, hkind]
    exact FlowStep.noConfusion
  · rw [FrontEnd.declared, hdeclared]
    rfl

/-- **Java declares the methods that are entered.** -/
theorem declaresEntered : frontEnd.DeclaresEntered := by
  intro d n name ps body h
  have hmethod : functionStep (d.declaredName n) (parameters d n) (n.field? "body") =
        .function name ps body →
      declarations d n = (methodInfo d n >>= fun f => pure (functionDeclarations f)) →
      ∃ f ∈ (frontEnd.declared d n).functions, f.name = name ∧ f.line = d.line n := by
    intro hstep hdeclared
    have hname := functionStep_eq_function hstep
    refine exists_function_of_info (methodInfo d n) (f := ⟨name, d.line n, parameters d n,
      (n.field? "type").bind d.textOf?, modifiers d n⟩) hdeclared ?_ rfl
    rw [methodInfo, hname]
    rfl
  rw [frontEnd_flowStep] at h
  unfold flowStep at h
  dsimp only at h
  split at h <;> first
    | exact FlowStep.noConfusion h
    | exact absurd h referenceStep_ne_function
    | skip
  iterate 3
    rename_i hkind
    exact hmethod h (by simp only [declarations, hkind])
  · split at h
    · exact absurd h referenceStep_ne_function
    · exact FlowStep.noConfusion h

end Java

/-! ## 3. Python -/

namespace Python

variable {d : Document} {n : Node}

/-- The end of a target is bound as its statement says, or as a field. -/
theorem binding_of_mem_names {t : Node} {binding : Binding} {b : BoundName}
    (h : b ∈ (bindTargets d t binding).names) : b.binding = binding ∨ b.binding = .field := by
  simp only [bindTargets, List.mem_flatMap, List.mem_map] at h
  obtain ⟨_, ⟨e, -, rfl⟩, hb⟩ := h
  unfold bindOne at hb
  split at hb
  · obtain ⟨_, -, rfl⟩ := Option.map_eq_some_iff.mp (Option.mem_toList.mp hb)
    exact Or.inl rfl
  · split at hb
    · obtain ⟨_, -, rfl⟩ := Option.map_eq_some_iff.mp (Option.mem_toList.mp hb)
      exact Or.inr rfl
    · cases hb

theorem comprehensionStep_ne_function {name : String} {ps : List String} {nodes : List Node} :
    comprehensionStep n ≠ .function name ps nodes := by
  unfold comprehensionStep
  split <;> exact FlowStep.noConfusion

theorem exceptStep_ne_function {name : String} {ps : List String} {nodes : List Node} :
    exceptStep n ≠ .function name ps nodes := by
  unfold exceptStep
  dsimp only
  split <;> exact FlowStep.noConfusion

theorem exceptStep_binding_ne_parameter {values targets : List Node} {binding : Binding}
    {next : List Node} (h : exceptStep n = .bind values targets binding next) :
    binding ≠ .parameter := by
  unfold exceptStep at h
  dsimp only at h
  split at h
  · cases h
    exact Binding.noConfusion
  · exact FlowStep.noConfusion h

theorem binding_ne_parameter {values targets : List Node} {binding : Binding} {next : List Node}
    (h : flowStep d n = .bind values targets binding next) : binding ≠ .parameter := by
  unfold flowStep at h
  dsimp only at h
  split at h <;> first
    | exact absurd h functionStep_ne_bind
    | exact absurd h referenceStep_ne_bind
    | exact absurd h comprehensionStep_ne_bind
    | exact FlowStep.noConfusion h
    | exact exceptStep_binding_ne_parameter h
    | skip
  -- two kinds of assignments, two of loops, patterns and named expressions
  iterate 6
    cases h
    exact Binding.noConfusion
  · split at h
    · exact absurd h referenceStep_ne_bind
    · exact FlowStep.noConfusion h

theorem bindsNoParameter : frontEnd.BindsNoParameter :=
  FrontEnd.bindsNoParameter_of binding_ne_parameter binding_of_mem_names

/-- **Python declares what it binds.** -/
theorem declaresBindings : frontEnd.DeclaresBindings := by
  intro d n
  have hdeclared : frontEnd.declarations d n = declarations d n := by rw [frontEnd_declarations]
  unfold declarations at hdeclared
  split at hdeclared
  · rename_i hkind
    refine bindings_of_bind hdeclared bindings_functionDeclarations fun _ _ _ _ => ?_
    simp only [frontEnd_flowStep, flowStep, hkind]
    exact functionStep_ne_bind
  -- classes, imports of modules and imports from modules
  iterate 3
    rename_i hkind
    refine bindings_of_bind hdeclared (fun _ => rfl) fun _ _ _ _ => ?_
    simp only [frontEnd_flowStep, flowStep, hkind]
    exact FlowStep.noConfusion
  · rw [FrontEnd.declared, hdeclared]
    rfl

/-- **Python declares the functions that are entered.** -/
theorem declaresEntered : frontEnd.DeclaresEntered := by
  intro d n name ps body h
  rw [frontEnd_flowStep] at h
  unfold flowStep at h
  dsimp only at h
  split at h <;> first
    | exact FlowStep.noConfusion h
    | exact absurd h referenceStep_ne_function
    | exact absurd h comprehensionStep_ne_function
    | exact absurd h exceptStep_ne_function
    | skip
  · rename_i hkind
    have hname := functionStep_eq_function h
    refine exists_function_of_info (functionInfo d n) (f := ⟨name, d.line n, parameters d n,
      (n.field? "return_type").bind d.textOf?, modifiers d n⟩) ?_ ?_ rfl
    · simp only [frontEnd_declarations, declarations, hkind]
    · rw [functionInfo, hname]
      rfl
  · split at h
    · exact absurd h referenceStep_ne_function
    · exact FlowStep.noConfusion h

end Python

/-! ## 4. Both languages -/

/-- In both languages only functions bind parameters. -/
theorem Language.bindsNoParameter_frontEnd : ∀ l : Language, l.frontEnd.BindsNoParameter
  | .python => Python.bindsNoParameter
  | .java => Java.bindsNoParameter

/-- In both languages nodes declare what they bind. -/
theorem Language.declaresBindings_frontEnd : ∀ l : Language, l.frontEnd.DeclaresBindings
  | .python => Python.declaresBindings
  | .java => Java.declaresBindings

/-- In both languages functions are declared where they are entered. -/
theorem Language.declaresEntered_frontEnd : ∀ l : Language, l.frontEnd.DeclaresEntered
  | .python => Python.declaresEntered
  | .java => Java.declaresEntered

/-- A name that the walk binds is bound by a step, so it is no parameter. -/
theorem binding_ne_parameter_of_mem_flow (l : Language) {d : Document} {b : BoundName}
    (h : .define b ∈ d.flow l.frontEnd) : b.binding ≠ .parameter := by
  rw [flow_eq_evaluate] at h
  obtain ⟨n, -, hn⟩ := mem_evaluate_iff.mp h
  refine l.bindsNoParameter_frontEnd d n ⟨b.name, b.line, b.binding⟩ ?_
  rw [← bound_findings]
  exact List.mem_flatMap.mpr ⟨.define b, hn, List.mem_singleton_self _⟩

end CodeDiagram
