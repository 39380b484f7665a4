/-
# A node that fails leaves nothing behind

The collectors of `FrontEnd/Collecting.lean` add entry by entry to one collection that all nodes
share.  Whatever is in it, a node of either language adds what it declares by itself, and one that
fails adds nothing (`Language.adds_collect`).

`Collector.Adds` is what is shown of every collector.  Two things carry it through a kind of node:
what can fail is asked for before anything is added (`adds_require`), and after that nothing can
fail (`Adds.bind`, `adds_forM`).  The imports of one statement are gathered on the side, so a name
that cannot be had ends them all (`Python.appendNames_eq`).
-/
import CodeDiagram.FrontEnd.Collecting

namespace CodeDiagram

open Syntax

/-! ## 1. Declarations put together -/

namespace Declarations

/-- What some things declare, put together. -/
def collect {α : Type} (f : α → Declarations) (l : List α) : Declarations where
  functions := l.flatMap fun a => (f a).functions
  classes := l.flatMap fun a => (f a).classes
  bindings := l.flatMap fun a => (f a).bindings
  imports := l.flatMap fun a => (f a).imports

theorem append_empty (ds : Declarations) : ds ++ ({} : Declarations) = ds := by
  show ds.append {} = ds
  simp [append]

theorem append_assoc (a b c : Declarations) : a ++ b ++ c = a ++ (b ++ c) := by
  show (a.append b).append c = a.append (b.append c)
  simp [append]

theorem collect_concat {α : Type} (f : α → Declarations) (l : List α) (a : α) :
    collect f (l ++ [a]) = collect f l ++ f a := by
  simp only [collect, List.flatMap_append, List.flatMap_singleton]
  rfl

theorem foldl_append {α : Type} (f : α → Declarations) (l m : List α) :
    m.foldl (fun ds a => ds ++ f a) (collect f l) = collect f (l ++ m) := by
  induction m generalizing l with
  | nil => rw [List.append_nil, List.foldl_nil]
  | cons a m ih =>
    rw [List.foldl_cons, ← collect_concat, ih, List.append_assoc, List.singleton_append]

end Declarations

/-! ## 2. What a collector adds -/

namespace Collector

/-- A collector adds some declarations to those so far, or it fails and adds none. -/
def Adds (c : Collector Unit) (x : Except ExtractionFault Declarations) : Prop :=
  ∀ ds, c.run.run ds =
    match x with
    | .ok new => (.ok (), ds ++ new)
    | .error e => (.error e, ds)

theorem run_bind {α β : Type} (c : Collector α) (k : α → Collector β) (ds : Declarations) :
    (c >>= k).run.run ds =
      match c.run.run ds with
      | (.ok a, ds') => (k a).run.run ds'
      | (.error e, ds') => (.error e, ds') := by
  rw [ExceptT.run_bind, StateT.run_bind]
  obtain ⟨r, ds'⟩ := c.run.run ds
  cases r with
  | ok a => rfl
  | error e => rfl

theorem adds_pure : (pure () : Collector Unit).Adds (.ok {}) := by
  intro ds
  show (Except.ok (), ds) = (Except.ok (), ds ++ {})
  rw [Declarations.append_empty]

/-- Two collectors that do not fail add one after the other. -/
theorem Adds.bind {c c' : Collector Unit} {a b : Declarations} (h : c.Adds (.ok a))
    (h' : c'.Adds (.ok b)) : (c >>= fun _ => c').Adds (.ok (a ++ b)) := by
  intro ds
  calc (c >>= fun _ => c').run.run ds = c'.run.run (ds ++ a) := by rw [run_bind, h ds]
    _ = (.ok (), ds ++ a ++ b) := h' (ds ++ a)
    _ = (.ok (), ds ++ (a ++ b)) := by rw [Declarations.append_assoc]

/-- What may fail is asked for first, so nothing was added when it fails. -/
theorem adds_require {α : Type} {x : Except ExtractionFault α} {k : α → Collector Unit}
    {new : α → Declarations} (h : ∀ a, (k a).Adds (.ok (new a))) :
    (require x >>= k).Adds (x >>= fun a => pure (new a)) := by
  intro ds
  cases x with
  | error e => rfl
  | ok a => exact h a ds

/-- A loop adds what its turns add. -/
theorem adds_forM {α : Type} {c : α → Collector Unit} {new : α → Declarations}
    (h : ∀ a, (c a).Adds (.ok (new a))) (l : List α) : (l.forM c).Adds (.ok (.collect new l)) := by
  induction l with
  | nil => exact adds_pure
  | cons a l ih => exact (h a).bind ih

theorem adds_variable (v : VariableInfo) : (addVariable v).Adds (.ok { bindings := [v] }) := by
  intro ds
  show (Except.ok (), _) = (Except.ok (), ds.append _)
  simp [Declarations.append]

theorem adds_function (f : FunctionInfo) : (addFunction f).Adds (.ok { functions := [f] }) := by
  intro ds
  show (Except.ok (), _) = (Except.ok (), ds.append _)
  simp [Declarations.append]

theorem adds_class (c : ClassInfo) : (addClass c).Adds (.ok { classes := [c] }) := by
  intro ds
  show (Except.ok (), _) = (Except.ok (), ds.append _)
  simp [Declarations.append]

theorem adds_import (i : ImportInfo) : (addImport i).Adds (.ok { imports := [i] }) := by
  intro ds
  show (Except.ok (), _) = (Except.ok (), ds.append _)
  simp [Declarations.append]

theorem adds_imports (is : List ImportInfo) :
    (is.forM addImport).Adds (.ok { imports := is }) := by
  have hnew : ({ imports := is } : Declarations) = .collect (fun i => { imports := [i] }) is := by
    simp [Declarations.collect]
  rw [hnew]
  exact adds_forM adds_import is

theorem adds_declared (f : FunctionInfo) :
    (addDeclared f).Adds (.ok (functionDeclarations f)) := by
  have hnew : functionDeclarations f = Declarations.collect
      (fun name => { bindings := [⟨name, f.line, .parameter⟩] }) f.parameters ++
        { functions := [f] } := by
    show _ = Declarations.append _ _
    simp [functionDeclarations, parameterVariables, Declarations.collect, Declarations.append,
      List.map_eq_flatMap]
  rw [hnew]
  exact (adds_forM (fun name => adds_variable ⟨name, f.line, .parameter⟩) f.parameters).bind
    (adds_function f)

theorem adds_bound (bindTargets : Document → Node → Binding → BindTargets) (d : Document)
    (step : FlowStep) :
    (addBound bindTargets d step).Adds (.ok { bindings := boundVariables bindTargets d step }) := by
  cases step with
  | bind values targets binding next =>
    have hnew : ({ bindings := boundVariables bindTargets d (.bind values targets binding next) } :
        Declarations) = .collect (fun target => .collect
          (fun b : BoundName => { bindings := [⟨b.name, b.line, b.binding⟩] })
          (bindTargets d target binding).names) targets := by
      simp [boundVariables, Declarations.collect, List.map_eq_flatMap, List.flatMap_assoc]
    rw [hnew]
    exact adds_forM (fun target => adds_forM
      (fun b : BoundName => adds_variable ⟨b.name, b.line, b.binding⟩)
      (bindTargets d target binding).names) targets
  | function name parameters body => exact adds_pure
  | reference name => exact adds_pure
  | walk children => exact adds_pure
  | skip => exact adds_pure

end Collector

open Collector

/-! ## 3. Java -/

/-- A node of Java adds what it declares, or fails and adds nothing. -/
theorem Java.adds_collect (d : Document) (n : Node) : (collect d n).Adds (declarations d n) := by
  unfold collect
  split
  -- three kinds of methods, four of types, imports, and all the rest
  iterate 3
    rename_i hkind
    rw [declarations, hkind]
    exact adds_require adds_declared
  iterate 4
    rename_i hkind
    rw [declarations, hkind]
    exact adds_require adds_class
  · rename_i hkind
    rw [declarations, hkind]
    exact adds_require adds_import
  · rw [declarations]
    split
    all_goals first | contradiction | exact adds_bound bindTargets d (flowStep d n)

/-! ## 4. Python -/

namespace Python

/-- The names of an import come after what was there, all of them or none. -/
theorem appendNames_eq (d : Document) (n : Node) (entry : String → Option String → ImportInfo)
    (imports : List ImportInfo) : appendNames d n entry imports =
      (((n.fields "name").mapM fun c => do
        let (path, renamedTo) ← importName d c
        return entry path renamedTo) >>= fun names => pure (imports ++ names)) := by
  unfold appendNames
  induction n.fields "name" generalizing imports with
  | nil => rw [List.foldlM_nil, List.mapM_nil, pure_bind, List.append_nil]
  | cons c l ih =>
    rw [List.foldlM_cons, List.mapM_cons]
    cases importName d c with
    | error e => rfl
    | ok x =>
      refine (ih (imports ++ [entry x.1 x.2])).trans ?_
      simp only [List.append_assoc, List.singleton_append]
      show _ = ((_ >>= fun names => pure (entry x.1 x.2 :: names)) >>= _ : Except _ _)
      rw [bind_assoc]
      rfl

theorem importInfos_eq_plain {d : Document} {n : Node} (h : n.kind = "import_statement") :
    importInfos d n = plainImports d n := by
  unfold importInfos plainImports
  simp [h, appendNames_eq]

theorem importInfos_eq_from {d : Document} {n : Node} (h : n.kind = "import_from_statement") :
    importInfos d n = fromImports d n := by
  unfold importInfos fromImports
  simp [h, appendNames_eq]

/-- A node of Python adds what it declares, or fails and adds nothing. -/
theorem adds_collect (d : Document) (n : Node) : (collect d n).Adds (declarations d n) := by
  unfold collect
  split
  · rename_i hkind
    rw [declarations, hkind]
    exact adds_require adds_declared
  · rename_i hkind
    rw [declarations, hkind]
    exact adds_require adds_class
  · rename_i hkind
    rw [importInfos_eq_plain hkind, declarations, hkind]
    exact adds_require adds_imports
  · rename_i hkind
    rw [importInfos_eq_from hkind, declarations, hkind]
    exact adds_require adds_imports
  · rw [declarations]
    split
    all_goals first | contradiction | exact adds_bound bindTargets d (flowStep d n)

end Python

/-! ## 5. Both languages -/

/-- **A node of either language adds what it declares, or fails and adds nothing**, whatever was
collected before. -/
theorem Language.adds_collect : ∀ (l : Language) (d : Document) (n : Node),
    (l.collect d n).Adds (l.frontEnd.declarations d n)
  | .python, d, n => Python.adds_collect d n
  | .java, d, n => Java.adds_collect d n

/-- What is collected at a node alone is added to whatever was collected before; so are the cause of
a failure and the state it leaves. -/
theorem Language.collect_eq (l : Language) (d : Document) (n : Node) (ds : Declarations) :
    (l.collect d n).run.run ds =
      (((l.collect d n).run.run {}).1, ds ++ ((l.collect d n).run.run {}).2) := by
  rw [l.adds_collect d n ds, l.adds_collect d n {}]
  cases l.frontEnd.declarations d n with
  | error e =>
    show _ = (Except.error e, ds ++ ({} : Declarations))
    rw [Declarations.append_empty]
  | ok new => rfl

end CodeDiagram
