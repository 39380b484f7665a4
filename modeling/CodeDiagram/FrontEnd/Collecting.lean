/-
# Collecting in place

`FrontEnd.declarations` says what a node declares by itself.  Here the same is collected step by
step: all nodes add to one collection, entry by entry, and a node stops where something cannot be
had.  A collector that fails does not take back what it has added (`Collector`), so that nothing is
left of a node that fails is not in the notation but in the order of the steps: see
`Proofs/FrontEnd/Collecting.lean`.
-/
import CodeDiagram.FrontEnd.Registry

namespace CodeDiagram

open Syntax

/-! ## 1. Collectors -/

/-- Adds to the declarations so far.  What was added stays if the collector fails later. -/
abbrev Collector := ExceptT ExtractionFault (StateM Declarations)

namespace Collector

/-- Goes on with a value, or fails for want of it. -/
def require {α : Type} (x : Except ExtractionFault α) : Collector α := ExceptT.mk (pure x)

def addVariable (v : VariableInfo) : Collector Unit :=
  modify fun ds => { ds with bindings := ds.bindings ++ [v] }

def addFunction (f : FunctionInfo) : Collector Unit :=
  modify fun ds => { ds with functions := ds.functions ++ [f] }

def addClass (c : ClassInfo) : Collector Unit :=
  modify fun ds => { ds with classes := ds.classes ++ [c] }

def addImport (i : ImportInfo) : Collector Unit :=
  modify fun ds => { ds with imports := ds.imports ++ [i] }

/-- Adds the parameters of a function, and then the function. -/
def addDeclared (f : FunctionInfo) : Collector Unit := do
  f.parameters.forM fun name => addVariable ⟨name, f.line, .parameter⟩
  addFunction f

/-- Adds the names that a step binds, target by target. -/
def addBound (bindTargets : Document → Node → Binding → BindTargets) (d : Document) :
    FlowStep → Collector Unit
  | .bind _ targets binding _ =>
    targets.forM fun target =>
      (bindTargets d target binding).names.forM fun b => addVariable ⟨b.name, b.line, b.binding⟩
  | _ => return

end Collector

open Collector

/-! ## 2. Java -/

/-- Collects what a node declares. -/
def Java.collect (d : Document) (n : Node) : Collector Unit := do
  match n.kind with
  | "method_declaration" | "constructor_declaration" | "compact_constructor_declaration" =>
    addDeclared (← require (methodInfo d n))
  | "class_declaration" | "interface_declaration" | "enum_declaration" | "record_declaration" =>
    addClass (← require (classInfo d n))
  | "import_declaration" => addImport (← require (importInfo d n))
  | _ => addBound bindTargets d (flowStep d n)

/-! ## 3. Python -/

namespace Python

/-- Adds an entry for each name of an import; the first name that cannot be had ends it. -/
def appendNames (d : Document) (n : Node) (entry : String → Option String → ImportInfo)
    (imports : List ImportInfo) : Except ExtractionFault (List ImportInfo) :=
  (n.fields "name").foldlM (fun imports c => do
    let (path, renamedTo) ← importName d c
    return imports ++ [entry path renamedTo]) imports

/-- The imports of a statement, from an empty list on. -/
def importInfos (d : Document) (n : Node) : Except ExtractionFault (List ImportInfo) := do
  let line := d.line n
  match n.kind with
  | "import_statement" =>
    appendNames d n (fun path renamedTo => { path, renamedTo, line }) []
  | "import_from_statement" =>
    let base ← d.fieldText n "module_name"
    let imports : List ImportInfo :=
      if n.hasChildOfKind "wildcard_import" then
        [{ path := joinModule base "*", line, flags := { isWildcard := true, isFrom := true } }]
      else []
    appendNames d n (fun path renamedTo =>
      { path := joinModule base path, renamedTo, line, flags := { isFrom := true } }) imports
  | _ => return []

/-- Collects what a node declares. -/
def collect (d : Document) (n : Node) : Collector Unit := do
  match n.kind with
  | "function_definition" => addDeclared (← require (functionInfo d n))
  | "class_definition" => addClass (← require (classInfo d n))
  | "import_statement" | "import_from_statement" =>
    (← require (importInfos d n)).forM addImport
  | _ => addBound bindTargets d (flowStep d n)

end Python

/-! ## 4. Both languages -/

/-- Collects what a node of a language declares. -/
def Language.collect : Language → Document → Node → Collector Unit
  | .python => Python.collect
  | .java => Java.collect

end CodeDiagram
