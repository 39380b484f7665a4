/-
# Functions are declared as they are entered

A function is met twice: its declaration is collected with the outline, and the walk enters it.  For
both languages the two agree about its name, line and parameters (`FrontEnd.DeclaresSteps`), and the
walk enters functions of the document only (`exists_function_of_mem_evaluate`).
-/
import CodeDiagram.Proofs.DataFlow.Findings
import CodeDiagram.Proofs.DataFlow.Visits

namespace CodeDiagram

open Syntax

/-! ## 1. The law -/

/-- A node of a document that is a function, with its name, line and parameters. -/
def FrontEnd.IsFunction (fe : FrontEnd) (d : Document) (n : Node) (name : String) (line : Nat)
    (parameters : List String) : Prop :=
  line = d.line n ∧ ∃ body, fe.flowStep d n = .function name parameters body

/-- The functions of a document with their names and lines and with their parameters, in document
order. -/
def FrontEnd.functionsIn (fe : FrontEnd) (d : Document) : List ((String × Nat) × List String) :=
  d.root.inside.filterMap fun n => match fe.flowStep d n with
    | .function name parameters _ => some ((name, d.line n), parameters)
    | _ => none

/-- A function of a document is listed. -/
theorem mem_functionsIn {fe : FrontEnd} {d : Document} {n : Node} {name : String} {line : Nat}
    {parameters : List String} (hn : d.root.IsInside n)
    (h : fe.IsFunction d n name line parameters) :
    ((name, line), parameters) ∈ fe.functionsIn d := by
  obtain ⟨rfl, body, hstep⟩ := h
  exact List.mem_filterMap.mpr ⟨n, Node.mem_inside hn, by rw [hstep]⟩

/-- What a node declares as a function is what the walk enters at the node. -/
def FrontEnd.DeclaresSteps (fe : FrontEnd) : Prop :=
  ∀ d n ds f, fe.declarations d n = .ok ds → f ∈ ds.functions →
    fe.IsFunction d n f.name f.line f.parameters

/-- What is known of a function that is named is declared, and is what the walk enters. -/
theorem isFunction_of_info {fe : FrontEnd} {d : Document} {n : Node} {ds : Declarations}
    {f : FunctionInfo} {info : Except ExtractionFault FunctionInfo}
    (hstep : fe.flowStep d n =
      functionStep (d.declaredName n) (fe.parameters d n) (n.field? "body"))
    (hinfo : ∀ f, info = .ok f →
      d.declaredName n = .ok f.name ∧ f.line = d.line n ∧ f.parameters = fe.parameters d n)
    (h : (info >>= fun f => pure (functionDeclarations f)) = .ok ds) (hf : f ∈ ds.functions) :
    fe.IsFunction d n f.name f.line f.parameters := by
  cases info with
  | error e => cases h
  | ok g =>
    obtain rfl := Except.ok.inj h
    obtain rfl := List.mem_singleton.mp hf
    obtain ⟨hname, hline, hparameters⟩ := hinfo f rfl
    refine ⟨hline, (n.field? "body").toList, ?_⟩
    rw [hstep, hname, hparameters]
    rfl

/-- What is declared once something else is known has no functions. -/
theorem not_mem_functions_of_bind {α : Type} {x : Except ExtractionFault α}
    {g : α → Declarations} {ds : Declarations} {f : FunctionInfo} (hg : ∀ a, (g a).functions = [])
    (h : (x >>= fun a => pure (g a)) = .ok ds) : f ∉ ds.functions := by
  cases x with
  | error e => cases h
  | ok a =>
    obtain rfl := Except.ok.inj h
    rw [hg]
    exact List.not_mem_nil

namespace Java

theorem methodInfo_eq_ok {d : Document} {n : Node} {f : FunctionInfo}
    (h : methodInfo d n = .ok f) :
    d.declaredName n = .ok f.name ∧ f.line = d.line n ∧ f.parameters = parameters d n := by
  cases hname : d.declaredName n with
  | error e =>
    rw [methodInfo, hname] at h
    cases h
  | ok name =>
    rw [methodInfo, hname] at h
    obtain rfl := Except.ok.inj h
    exact ⟨rfl, rfl, rfl⟩

theorem declaresSteps : frontEnd.DeclaresSteps := by
  intro d n ds f h hf
  have hfunction : flowStep d n =
        functionStep (d.declaredName n) (parameters d n) (n.field? "body") →
      (methodInfo d n >>= fun f => pure (functionDeclarations f)) = .ok ds →
      frontEnd.IsFunction d n f.name f.line f.parameters := fun hstep hok =>
    isFunction_of_info hstep (fun _ => methodInfo_eq_ok) hok hf
  rw [frontEnd_declarations] at h
  unfold declarations at h
  split at h
  -- three kinds of methods, four of types, imports, and all that declares no function
  iterate 3 exact hfunction (by simp only [flowStep, *]) h
  iterate 4 exact absurd hf (not_mem_functions_of_bind (fun _ => rfl) h)
  · exact absurd hf (not_mem_functions_of_bind (fun _ => rfl) h)
  · obtain rfl := Except.ok.inj h
    cases hf

end Java

namespace Python

theorem functionInfo_eq_ok {d : Document} {n : Node} {f : FunctionInfo}
    (h : functionInfo d n = .ok f) :
    d.declaredName n = .ok f.name ∧ f.line = d.line n ∧ f.parameters = parameters d n := by
  cases hname : d.declaredName n with
  | error e =>
    rw [functionInfo, hname] at h
    cases h
  | ok name =>
    rw [functionInfo, hname] at h
    obtain rfl := Except.ok.inj h
    exact ⟨rfl, rfl, rfl⟩

theorem declaresSteps : frontEnd.DeclaresSteps := by
  intro d n ds f h hf
  rw [frontEnd_declarations] at h
  unfold declarations at h
  split at h
  · have hstep : flowStep d n =
        functionStep (d.declaredName n) (parameters d n) (n.field? "body") := by
      simp only [flowStep, *]
    exact isFunction_of_info hstep (fun _ => functionInfo_eq_ok) h hf
  -- classes, imports of modules and imports from modules
  iterate 3 exact absurd hf (not_mem_functions_of_bind (fun _ => rfl) h)
  · obtain rfl := Except.ok.inj h
    cases hf

end Python

/-- Both front ends declare functions as the walk enters them. -/
theorem Language.declaresSteps_frontEnd : ∀ l : Language, l.frontEnd.DeclaresSteps
  | .python => Python.declaresSteps
  | .java => Java.declaresSteps

/-! ## 2. Functions that the walk enters -/

variable {fe : FrontEnd} {d : Document}

/-- The walk stays inside the node that it starts from. -/
theorem isInside_of_mem_trail (hfe : fe.IsLawful) {n m : Node} (h : m ∈ fe.trail d n) :
    n.IsInside m := by
  induction hsize : n.size using Nat.strongRecOn generalizing n m with
  | ind size ih =>
    have hchild : ∀ c ∈ (fe.flowStep d n).mentions, n.IsInside c ∧ c.size < size := fun c hc =>
      ⟨.child .self (hfe.below hc), hsize ▸ Node.size_lt_of_mem_children (hfe.below hc)⟩
    have hahead : ∀ c ∈ fe.ahead d n, n.IsInside c := by
      intro c hc
      rcases mentions_or_reads_of_mem_ahead hc with hc | ⟨t, ht, binding, hr⟩
      · exact (hchild c hc).1
      · -- a read is visited from the target that has it
        obtain ⟨hin, hlt⟩ := hchild t ht
        exact hin.trans (ih _ hlt (hfe.reads_visited hr) rfl)
    rw [FrontEnd.trail_eq] at h
    rcases List.mem_cons.mp h with rfl | h
    · exact .self
    · obtain ⟨c, hc, hm⟩ := List.mem_flatMap.mp h
      have hlt : c.size < size := hsize ▸ fe.size_lt_of_mem_ahead d hc
      exact (hahead c hc).trans (ih _ hlt hm rfl)

/-- **The functions that the walk enters are functions of the document.** -/
theorem exists_function_of_mem_evaluate (hfe : fe.IsLawful) {name : String} {line : Nat}
    {parameters : List String} (h : .enter name line parameters ∈ fe.evaluate d d.root) :
    ∃ n, d.root.IsInside n ∧ fe.IsFunction d n name line parameters := by
  obtain ⟨n, hn, he⟩ := mem_evaluate_iff.mp h
  refine ⟨n, isInside_of_mem_trail hfe hn, ?_⟩
  unfold FrontEnd.findings at he
  split at he
  · obtain ⟨b, -, hb⟩ := List.mem_map.mp he
    cases hb
  · rename_i body hstep
    obtain ⟨rfl, rfl, rfl⟩ := Event.enter.inj (List.mem_singleton.mp he)
    exact ⟨rfl, body, hstep⟩
  · cases List.mem_singleton.mp he
  · cases he
  · cases he

end CodeDiagram
