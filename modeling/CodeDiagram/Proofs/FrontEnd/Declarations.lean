/-
# What a node declares by its kind

A front end says twice what a grammar kind stands for: `classify` gives the kind of node, and
`declarations` collects what is declared.  `FrontEnd.Accounts` is the law between the two: a
function is declared where a function is, a type where a type is, and imports where an import is,
with the name and the line of the node.  Each language has kinds for which nothing is collected
though they are classified (`Language.isOmitted`); for all others the law holds
(`Language.accounts`).
-/
import CodeDiagram.FrontEnd.Registry
import CodeDiagram.Proofs.FrontEnd.Functions

namespace CodeDiagram

open Syntax

/-! ## 1. The law -/

/-- What a node declares, with nothing for a node whose declarations cannot be had. -/
def FrontEnd.declared (fe : FrontEnd) (d : Document) (n : Node) : Declarations :=
  (fe.declarations d n).toOption.getD {}

/-- A declaration has the name and the line of a node. -/
def IsNameOf (d : Document) (n : Node) (name : String) (line : Nat) : Prop :=
  d.declaredName n = .ok name ∧ line = d.line n

/-- Whether a node stands for an import. -/
def NodeKind.isImport (k : NodeKind) : Bool := k == importDecl

/-- What is collected at a node is what its kind asks for, unless the node is one of those for which
no type or import is collected. -/
structure FrontEnd.Accounts (fe : FrontEnd) (omitted : Node → Bool) (d : Document) (n : Node)
    (ds : Declarations) : Prop where
  functions : List.Forall₂ (fun m f => IsNameOf d m f.name f.line)
    ([n].filter fun m => (fe.classify m.kind).isFunction) ds.functions
  classes : List.Forall₂ (fun m c => IsNameOf d m c.name c.line)
    ([n].filter fun m => (fe.classify m.kind).isType && !omitted m) ds.classes
  imports : ds.imports ≠ [] ↔ (fe.classify n.kind).isImport = true ∧ omitted n = false
  lines : ∀ i ∈ ds.imports, i.line = d.line n

namespace FrontEnd.Accounts

variable {fe : FrontEnd} {omitted : Node → Bool} {d : Document} {n : Node}

/-- The law for a function. -/
theorem ofFunction {f : FunctionInfo} (hk : fe.classify n.kind = .function)
    (hf : IsNameOf d n f.name f.line) :
    fe.Accounts omitted d n (functionDeclarations f) where
  functions := by simpa [hk, NodeKind.isFunction, functionDeclarations] using hf
  classes := by simp [hk, NodeKind.isType, functionDeclarations]
  imports := by simp [hk, NodeKind.isImport, functionDeclarations]
  lines := by simp [functionDeclarations]

/-- The law for a type. -/
theorem ofType {c : ClassInfo} (hk : (fe.classify n.kind).isType = true) (ho : omitted n = false)
    (hc : IsNameOf d n c.name c.line) : fe.Accounts omitted d n { classes := [c] } where
  functions := by
    cases h : fe.classify n.kind <;> simp [h, NodeKind.isType, NodeKind.isFunction] at hk ⊢
  classes := by simpa [hk, ho] using hc
  imports := by
    cases h : fe.classify n.kind <;> simp [h, NodeKind.isType, NodeKind.isImport] at hk ⊢
  lines := by simp

/-- The law for an import. -/
theorem ofImports {is : List ImportInfo} (hk : fe.classify n.kind = .importDecl)
    (ho : is = [] ↔ omitted n = true) (hlines : ∀ i ∈ is, i.line = d.line n) :
    fe.Accounts omitted d n { imports := is } where
  functions := by simp [hk, NodeKind.isFunction]
  classes := by simp [hk, NodeKind.isType]
  imports := by simp [hk, NodeKind.isImport, ho]
  lines := hlines

/-- The law for a node for which nothing is to be collected but names. -/
theorem ofBindings {bindings : List VariableInfo} (hf : fe.classify n.kind ≠ .function)
    (hother : ((fe.classify n.kind).isType || (fe.classify n.kind).isImport) = true →
      omitted n = true) :
    fe.Accounts omitted d n { bindings } where
  functions := by simp [NodeKind.isFunction, hf]
  classes := by
    cases ho : omitted n <;> simp_all
  imports := by
    cases ho : omitted n <;> simp_all
  lines := by simp

end FrontEnd.Accounts

/-- What is declared once something else is known. -/
theorem exists_of_bind_eq_ok {α β : Type} {x : Except ExtractionFault α} {g : α → β} {b : β}
    (h : (x >>= fun a => pure (g a)) = .ok b) : ∃ a, x = .ok a ∧ g a = b := by
  cases x with
  | error e => cases h
  | ok a => exact ⟨a, rfl, Except.ok.inj h⟩

/-! ## 2. Java -/

namespace Java

variable {d : Document} {n : Node} {ds : Declarations}

/-- Annotation types are classified as interfaces, and no type is collected for them. -/
def isOmitted (n : Node) : Bool := n.kind == "annotation_type_declaration"

theorem classInfo_eq_ok {c : ClassInfo} (h : classInfo d n = .ok c) :
    IsNameOf d n c.name c.line := by
  unfold classInfo at h
  cases hname : d.declaredName n with
  | error e =>
    rw [hname] at h
    cases h
  | ok name =>
    rw [hname] at h
    obtain ⟨parents, -, rfl⟩ := exists_of_bind_eq_ok h
    exact ⟨hname, rfl⟩

theorem importInfo_eq_ok {i : ImportInfo} (h : importInfo d n = .ok i) : i.line = d.line n := by
  unfold importInfo at h
  dsimp only at h
  split at h
  · cases h
  · obtain ⟨path, -, rfl⟩ := exists_of_bind_eq_ok h
    rfl

/-- The kinds that are classified as functions, types and imports. -/
theorem classify_of_rest (h₁ : n.kind ≠ "method_declaration")
    (h₂ : n.kind ≠ "constructor_declaration") (h₃ : n.kind ≠ "compact_constructor_declaration")
    (h₄ : n.kind ≠ "class_declaration") (h₅ : n.kind ≠ "interface_declaration")
    (h₆ : n.kind ≠ "enum_declaration") (h₇ : n.kind ≠ "record_declaration")
    (h₈ : n.kind ≠ "import_declaration") :
    classify n.kind ≠ .function ∧
      (((classify n.kind).isType || (classify n.kind).isImport) = true → isOmitted n = true) := by
  unfold classify isOmitted
  split <;> simp_all [NodeKind.isType, NodeKind.isImport]

/-- **Java declares what its kinds stand for**, but for annotation types. -/
theorem accounts (h : declarations d n = .ok ds) : frontEnd.Accounts isOmitted d n ds := by
  have hmethod : classify n.kind = .function →
      (methodInfo d n >>= fun f => pure (functionDeclarations f)) = .ok ds →
      frontEnd.Accounts isOmitted d n ds := by
    intro hk hok
    obtain ⟨f, hf, rfl⟩ := exists_of_bind_eq_ok hok
    obtain ⟨hname, hline, -⟩ := methodInfo_eq_ok hf
    exact .ofFunction hk ⟨hname, hline⟩
  have htype : (classify n.kind).isType = true → isOmitted n = false →
      (classInfo d n >>= fun c => pure ({ classes := [c] } : Declarations)) = .ok ds →
      frontEnd.Accounts isOmitted d n ds := by
    intro hk ho hok
    obtain ⟨c, hc, rfl⟩ := exists_of_bind_eq_ok hok
    exact .ofType hk ho (classInfo_eq_ok hc)
  unfold declarations at h
  split at h
  -- three kinds of methods, four of types, imports, and all the rest
  iterate 3
    rename_i hkind
    exact hmethod (by rw [hkind]; rfl) h
  iterate 4
    rename_i hkind
    exact htype (by rw [hkind]; rfl) (by rw [isOmitted, hkind]; rfl) h
  · rename_i hkind
    obtain ⟨i, hi, rfl⟩ := exists_of_bind_eq_ok h
    exact .ofImports (by rw [hkind]; rfl) (by simp [isOmitted, hkind])
      (by simp [importInfo_eq_ok hi])
  · obtain rfl := Except.ok.inj h
    obtain ⟨hf, hother⟩ := classify_of_rest (n := n) ‹_› ‹_› ‹_› ‹_› ‹_› ‹_› ‹_› ‹_›
    exact .ofBindings hf hother

end Java

/-! ## 3. Python -/

namespace Python

variable {d : Document} {n : Node} {ds : Declarations}

/-- Imports from the future are classified as imports, and nothing is collected for them.  An import
without names imports nothing. -/
def isOmitted (n : Node) : Bool :=
  match n.kind with
  | "future_import_statement" => true
  | "import_statement" => (n.fields "name").isEmpty
  | "import_from_statement" => (n.fields "name").isEmpty && !n.hasChildOfKind "wildcard_import"
  | _ => false

theorem classInfo_eq_ok {c : ClassInfo} (h : classInfo d n = .ok c) :
    IsNameOf d n c.name c.line := by
  unfold classInfo at h
  obtain ⟨name, hname, rfl⟩ := exists_of_bind_eq_ok h
  exact ⟨hname, rfl⟩

/-- Imports that are collected one by one are as many as the nodes that they are of, and have the
line that each is given. -/
theorem lines_of_mapM_eq_ok {f : Node → Except ExtractionFault (String × Option String)}
    {g : String × Option String → ImportInfo} {line : Nat} {l : List Node} {is : List ImportInfo}
    (hg : ∀ x, (g x).line = line)
    (h : (l.mapM fun c => f c >>= fun x => pure (g x)) = .ok is) :
    (is = [] ↔ l = []) ∧ ∀ i ∈ is, i.line = line := by
  induction l generalizing is with
  | nil =>
    obtain rfl := Except.ok.inj h
    simp
  | cons c l ih =>
    rw [List.mapM_cons] at h
    cases hc : f c with
    | error e =>
      rw [hc] at h
      cases h
    | ok x =>
      rw [hc] at h
      obtain ⟨rest, hrest, rfl⟩ := exists_of_bind_eq_ok h
      simpa [hg] using (ih hrest).2

theorem plainImports_eq_ok {is : List ImportInfo} (h : plainImports d n = .ok is) :
    (is = [] ↔ n.fields "name" = []) ∧ ∀ i ∈ is, i.line = d.line n := by
  unfold plainImports at h
  exact lines_of_mapM_eq_ok (g := fun x => ⟨x.1, x.2, d.line n, {}⟩) (fun _ => rfl) h

theorem fromImports_eq_ok {is : List ImportInfo} (h : fromImports d n = .ok is) :
    (is = [] ↔ n.fields "name" = [] ∧ n.hasChildOfKind "wildcard_import" = false) ∧
      ∀ i ∈ is, i.line = d.line n := by
  unfold fromImports at h
  cases hbase : d.fieldText n "module_name" with
  | error e =>
    rw [hbase] at h
    cases h
  | ok base =>
    rw [hbase] at h
    obtain ⟨names, hnames, rfl⟩ := exists_of_bind_eq_ok h
    have hcollected : (names = [] ↔ n.fields "name" = []) ∧ ∀ i ∈ names, i.line = d.line n :=
      lines_of_mapM_eq_ok
        (g := fun x => ⟨joinModule base x.1, x.2, d.line n, { isFrom := true }⟩) (fun _ => rfl)
        hnames
    obtain ⟨hnil, hlines⟩ := hcollected
    cases hall : n.hasChildOfKind "wildcard_import" with
    | true => simpa using hlines
    | false => simpa [hnil] using hlines

/-- The kinds that are classified as functions, types and imports. -/
theorem classify_of_rest (h₁ : n.kind ≠ "function_definition") (h₂ : n.kind ≠ "class_definition")
    (h₃ : n.kind ≠ "import_statement") (h₄ : n.kind ≠ "import_from_statement") :
    classify n.kind ≠ .function ∧
      (((classify n.kind).isType || (classify n.kind).isImport) = true → isOmitted n = true) := by
  unfold classify isOmitted
  split <;> simp_all [NodeKind.isType, NodeKind.isImport]

/-- **Python declares what its kinds stand for**, but for imports from the future. -/
theorem accounts (h : declarations d n = .ok ds) : frontEnd.Accounts isOmitted d n ds := by
  unfold declarations at h
  split at h
  · rename_i hkind
    obtain ⟨f, hf, rfl⟩ := exists_of_bind_eq_ok h
    obtain ⟨hname, hline, -⟩ := functionInfo_eq_ok hf
    exact .ofFunction (by rw [hkind]; rfl) ⟨hname, hline⟩
  · rename_i hkind
    obtain ⟨c, hc, rfl⟩ := exists_of_bind_eq_ok h
    exact .ofType (by rw [hkind]; rfl) (by simp [isOmitted, hkind]) (classInfo_eq_ok hc)
  · rename_i hkind
    obtain ⟨is, his, rfl⟩ := exists_of_bind_eq_ok h
    obtain ⟨hnil, hlines⟩ := plainImports_eq_ok his
    exact .ofImports (by rw [hkind]; rfl) (by simp [isOmitted, hkind, hnil]) hlines
  · rename_i hkind
    obtain ⟨is, his, rfl⟩ := exists_of_bind_eq_ok h
    obtain ⟨hnil, hlines⟩ := fromImports_eq_ok his
    exact .ofImports (by rw [hkind]; rfl) (by simp [isOmitted, hkind, hnil]) hlines
  · obtain rfl := Except.ok.inj h
    obtain ⟨hf, hother⟩ := classify_of_rest (n := n) ‹_› ‹_› ‹_› ‹_›
    exact .ofBindings hf hother

end Python

/-! ## 4. Both languages -/

/-- Nodes that are classified as a type or an import and for which none is collected: annotation
types of Java, imports from the future of Python, and imports without names. -/
def Language.isOmitted : Language → Node → Bool
  | .python => Python.isOmitted
  | .java => Java.isOmitted

/-- **Both front ends declare what their kinds stand for**, but for the kinds that are left out. -/
theorem Language.accounts : ∀ (l : Language) {d : Document} {n : Node} {ds : Declarations},
    l.frontEnd.declarations d n = .ok ds → l.frontEnd.Accounts l.isOmitted d n ds
  | .python, _, _, _, h => Python.accounts h
  | .java, _, _, _, h => Java.accounts h

end CodeDiagram
