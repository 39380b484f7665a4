/-
# Declarations account for nodes

The declarations that are collected with an outline account for its graph if each node that stands
for a function, a type or an import has its entry.  An outline without diagnostics always accounts
for its functions; it accounts for its types and its imports exactly if it has no node of the kinds
for which a front end collects nothing (`build_accounts`).

Such nodes exist in both languages (`build_unaccounted`).
-/
import CodeDiagram.Proofs.Outline.Collecting
import CodeDiagram.Syntax.Recorded

namespace CodeDiagram.Outline

open CodeDiagram.Graph Syntax

/-! ## 1. Entries and nodes -/

/-- What is collected node by node corresponds to the nodes that have something to collect. -/
theorem forall₂_filter_flatMap {α β : Type} {r : α → β → Prop} {p : α → Bool} {f : α → List β}
    {l : List α} (h : ∀ a ∈ l, List.Forall₂ r ([a].filter p) (f a)) :
    List.Forall₂ r (l.filter p) (l.flatMap f) := by
  induction l with
  | nil => exact .nil
  | cons a l ih =>
    rw [← List.singleton_append, List.filter_append, List.flatMap_append, List.flatMap_singleton]
    exact List.rel_append (h a List.mem_cons_self) (ih fun b hb => h b (List.mem_cons_of_mem _ hb))

variable {fe : FrontEnd} {labelLength : Nat} {d : Document} {ns : List Node} {o : Outline}

/-- A node of the graph shows a name, cut to a length, and a line. -/
def Shows (labelLength : Nat) (v : Vertex) (name : String) (line : Nat) : Prop :=
  v.label = Text.truncate labelLength name ∧ v.line = some line

/-- There is an entry for each node that stands for a function, in order. -/
def AccountsForFunctions (labelLength : Nat) (o : Outline) : Prop :=
  List.Forall₂ (fun v f => Shows labelLength v f.name f.line)
    (o.graph.nodes.filter (·.kind.isFunction)) o.declarations.functions

/-- There is an entry for each node that stands for a type, in order. -/
def AccountsForClasses (labelLength : Nat) (o : Outline) : Prop :=
  List.Forall₂ (fun v c => Shows labelLength v c.name c.line)
    (o.graph.nodes.filter (·.kind.isType)) o.declarations.classes

/-- Each node that stands for an import contributes an entry with its line. -/
def AccountsForImports (fe : FrontEnd) (d : Document) (ns : List Node) (o : Outline) : Prop :=
  ∀ n ∈ ns, (fe.classify n.kind).isImport = true →
    ∃ i ∈ (fe.declared d n).imports, i ∈ o.declarations.imports ∧ i.line = d.line n

/-- Without diagnostics nothing is wrong with a node that an outline is made of. -/
theorem IsMadeOf.faults_eq_nil (h : IsMadeOf fe labelLength d ns o) (ho : o.diagnostics = [])
    {n : Node} (hn : n ∈ ns) : fe.faults d n = [] := by
  rw [h.diagnostics, List.flatten_eq_nil_iff] at ho
  obtain ⟨i, hi, rfl⟩ := List.mem_iff_getElem.mp hn
  exact List.map_eq_nil_iff.mp (ho _ (List.mem_mapIdx.mpr ⟨i, hi, rfl⟩))

theorem exists_ok_of_failure? {ε α : Type} {x : Except ε α} (h : failure? x = none) :
    ∃ a, x = .ok a := by
  cases x with
  | error e => cases h
  | ok a => exact ⟨a, rfl⟩

/-- A node with which nothing is wrong has its declarations. -/
theorem exists_declarations_of_faults {n : Node} (h : fe.faults d n = []) :
    ∃ ds, fe.declarations d n = .ok ds := by
  obtain ⟨-, hdeclarations⟩ := List.append_eq_nil_iff.mp h
  exact exists_ok_of_failure? (Option.toList_eq_nil_iff.mp hdeclarations)

/-- Functions and types are labelled with their names. -/
theorem label_of_declared {n : Node} {name : String}
    (hk : ((fe.classify n.kind).isFunction || (fe.classify n.kind).isType) = true)
    (hname : d.declaredName n = .ok name) :
    fe.label labelLength d n = Text.truncate labelLength name := by
  have hrule : (fe.classify n.kind).labelRule = .declaredName := by
    cases h : fe.classify n.kind <;> simp_all [NodeKind.isFunction, NodeKind.isType,
      NodeKind.labelRule]
  rw [FrontEnd.label, FrontEnd.fullLabel, hrule]
  simp only [hname]

/-! ## 2. Rows -/

/-- The nodes of the graph, each with the node of the document that it stands for. -/
def rows (fe : FrontEnd) (labelLength : Nat) (d : Document) (ns : List Node) :
    List (Vertex × Node) :=
  ns.mapIdx fun i n =>
    (⟨i, n.kind, fe.classify n.kind, fe.label labelLength d n, some (d.line n)⟩, n)

theorem IsMadeOf.map_fst_rows (h : IsMadeOf fe labelLength d ns o) :
    (rows fe labelLength d ns).map (·.1) = o.graph.nodes := by
  rw [h.nodes]
  exact List.ext_getElem (by simp [rows]) fun i _ _ => by simp [rows]

theorem map_snd_rows (fe : FrontEnd) (labelLength : Nat) (d : Document) (ns : List Node) :
    (rows fe labelLength d ns).map (·.2) = ns :=
  List.ext_getElem (by simp [rows]) fun i _ _ => by simp [rows]

theorem mem_rows {x : Vertex × Node} (h : x ∈ rows fe labelLength d ns) :
    x.2 ∈ ns ∧ x.1.type = x.2.kind ∧ x.1.kind = fe.classify x.2.kind ∧
      x.1.label = fe.label labelLength d x.2 ∧ x.1.line = some (d.line x.2) := by
  obtain ⟨i, hi, rfl⟩ := List.mem_mapIdx.mp h
  exact ⟨List.getElem_mem hi, rfl, rfl, rfl, rfl⟩

theorem exists_row (fe : FrontEnd) (labelLength : Nat) (d : Document) {n : Node} (h : n ∈ ns) :
    ∃ v, (v, n) ∈ rows fe labelLength d ns := by
  rw [← map_snd_rows fe labelLength d ns] at h
  obtain ⟨⟨v, m⟩, hv, rfl⟩ := List.mem_map.mp h
  exact ⟨v, hv⟩

/-- Each node that an outline is made of is shown by a node of its grammar kind. -/
theorem IsMadeOf.type_mem (h : IsMadeOf fe labelLength d ns o) {n : Node} (hn : n ∈ ns) :
    n.kind ∈ o.graph.nodes.map (·.type) := by
  obtain ⟨v, hv⟩ := exists_row fe labelLength d hn
  rw [← h.map_fst_rows, ← (mem_rows hv).2.1]
  exact List.mem_map_of_mem (List.mem_map_of_mem hv)

/-- Each node of the graph stands for a node of its kind. -/
theorem IsMadeOf.exists_node (h : IsMadeOf fe labelLength d ns o) {v : Vertex}
    (hv : v ∈ o.graph.nodes) : ∃ n ∈ ns, fe.classify n.kind = v.kind := by
  rw [← h.map_fst_rows] at hv
  obtain ⟨x, hx, rfl⟩ := List.mem_map.mp hv
  obtain ⟨hn, -, hkind, -⟩ := mem_rows hx
  exact ⟨x.2, hn, hkind.symm⟩

/-- Entries that have the names and lines of their nodes are shown by the rows of these. -/
theorem forall₂_rows (labelLength : Nat) {β : Type} {name : β → String} {line : β → Nat}
    {entries : Node → List β} {p : NodeKind → Bool} {q : Node → Bool}
    (hp : ∀ k, p k = true → (k.isFunction || k.isType) = true)
    (hns : ∀ n ∈ ns, List.Forall₂ (fun m b => IsNameOf d m (name b) (line b))
      ([n].filter fun m => p (fe.classify m.kind) && q m) (entries n)) :
    List.Forall₂ (fun x b => Shows labelLength x.1 (name b) (line b))
      ((rows fe labelLength d ns).filter fun x => p x.1.kind && q x.2) (ns.flatMap entries) := by
  have hentries : ns.flatMap entries =
      (rows fe labelLength d ns).flatMap fun x => entries x.2 := by
    conv_lhs => rw [← map_snd_rows fe labelLength d ns, List.flatMap_map]
  rw [hentries]
  refine forall₂_filter_flatMap fun x hx => ?_
  obtain ⟨hmem, -, hkind, hlabel, hline⟩ := mem_rows hx
  have hn := hns x.2 hmem
  rw [List.filter_singleton] at hn ⊢
  rw [hkind]
  generalize entries x.2 = bs at hn
  cases hpq : p (fe.classify x.2.kind) && q x.2 with
  | false =>
    rw [hpq] at hn
    cases hn
    exact .nil
  | true =>
    rw [hpq] at hn
    cases hn with
    | cons hname hrest =>
      cases hrest
      have hk := hp _ (Bool.and_eq_true_iff.mp hpq).1
      exact .cons ⟨hlabel.trans (label_of_declared hk hname.1), hname.2 ▸ hline⟩ .nil

/-- The nodes of a kind are those of the rows of that kind. -/
theorem IsMadeOf.filter_nodes (h : IsMadeOf fe labelLength d ns o) (p : NodeKind → Bool) :
    o.graph.nodes.filter (p ·.kind) =
      ((rows fe labelLength d ns).filter fun x => p x.1.kind).map (·.1) := by
  rw [← h.map_fst_rows, List.filter_map]
  rfl

/-- Entries for some of the nodes of a kind are entries for all of them exactly if there are no
others. -/
theorem IsMadeOf.forall₂_nodes_iff (h : IsMadeOf fe labelLength d ns o) {β : Type}
    {r : Vertex → β → Prop} {p : NodeKind → Bool} {q : Node → Bool} {bs : List β}
    (hbs : List.Forall₂ (fun x b => r x.1 b)
      ((rows fe labelLength d ns).filter fun x => p x.1.kind && q x.2) bs) :
    List.Forall₂ r (o.graph.nodes.filter (p ·.kind)) bs ↔
      ∀ n ∈ ns, p (fe.classify n.kind) = true → q n = true := by
  have hsome : ((rows fe labelLength d ns).filter fun x => p x.1.kind && q x.2) =
      ((rows fe labelLength d ns).filter fun x => p x.1.kind).filter fun x => q x.2 := by
    rw [List.filter_filter]
    exact List.filter_congr fun x _ => Bool.and_comm _ _
  rw [h.filter_nodes, List.forall₂_map_left_iff]
  rw [hsome] at hbs
  constructor
  · intro hall n hn hk
    have hlength := hbs.length_eq.trans hall.length_eq.symm
    obtain ⟨v, hv⟩ := exists_row fe labelLength d hn
    refine List.length_filter_eq_length_iff.mp hlength (v, n) (List.mem_filter.mpr ⟨hv, ?_⟩)
    rw [(mem_rows hv).2.2.1]
    exact hk
  · intro hall
    rwa [List.filter_eq_self.mpr] at hbs
    intro x hx
    obtain ⟨hmem, hk⟩ := List.mem_filter.mp hx
    obtain ⟨hn, -, hkind, -⟩ := mem_rows hmem
    exact hall x.2 hn (hkind ▸ hk)

/-! ## 3. Outlines without diagnostics -/

/-- **What an outline without diagnostics accounts for.**  It is made of nodes of the document, each
of which is shown by the graph and declares what is collected.  Functions are always accounted for;
types and imports are exactly if nothing is left out. -/
theorem build_accounts (l : Language) (limit labelLength : Nat) (d : Document)
    (h : (build l.frontEnd limit labelLength d).diagnostics = []) :
    ∃ ns, (∀ n ∈ ns, d.root.IsInside n) ∧
      IsMadeOf l.frontEnd labelLength d ns (build l.frontEnd limit labelLength d) ∧
      AccountsForFunctions labelLength (build l.frontEnd limit labelLength d) ∧
      (AccountsForClasses labelLength (build l.frontEnd limit labelLength d) ↔
        ∀ n ∈ ns, (l.frontEnd.classify n.kind).isType = true → l.isOmitted n = false) ∧
      (AccountsForImports l.frontEnd d ns (build l.frontEnd limit labelLength d) ↔
        ∀ n ∈ ns, (l.frontEnd.classify n.kind).isImport = true → l.isOmitted n = false) := by
  obtain ⟨ns, hinside, hmade⟩ := build_isMadeOf l.frontEnd limit labelLength d
  generalize build l.frontEnd limit labelLength d = o at h hmade
  have hlaw : ∀ n ∈ ns, l.frontEnd.Accounts l.isOmitted d n (l.frontEnd.declared d n) := by
    intro n hn
    obtain ⟨ds, hds⟩ := exists_declarations_of_faults (hmade.faults_eq_nil h hn)
    rw [FrontEnd.declared, hds]
    exact l.accounts hds
  have hfunctions := forall₂_rows labelLength (p := NodeKind.isFunction) (q := fun _ => true)
    (by simp +contextual) fun n hn => by simpa using (hlaw n hn).functions
  have hclasses := forall₂_rows labelLength (p := NodeKind.isType) (q := fun n => !l.isOmitted n)
    (by simp +contextual) fun n hn => (hlaw n hn).classes
  refine ⟨ns, hinside, hmade, ?_, ?_, ?_⟩
  · rw [AccountsForFunctions, hmade.declarations]
    exact (hmade.forall₂_nodes_iff hfunctions).mpr fun _ _ _ => rfl
  · rw [AccountsForClasses, hmade.declarations]
    refine (hmade.forall₂_nodes_iff (q := fun n => !l.isOmitted n) hclasses).trans ?_
    simp
  · rw [AccountsForImports, hmade.declarations]
    refine forall₂_congr fun n hn => imp_congr_right fun hk => ?_
    constructor
    · rintro ⟨i, hi, -⟩
      exact ((hlaw n hn).imports.mp (List.ne_nil_of_mem hi)).2
    · intro ho
      obtain ⟨i, hi⟩ := List.exists_mem_of_ne_nil _ ((hlaw n hn).imports.mpr ⟨hk, ho⟩)
      exact ⟨i, hi, List.mem_flatMap.mpr ⟨n, hn, hi⟩, (hlaw n hn).lines i hi⟩

/-- The text of an import and a class with a method. -/
def imported : Document where
  language := .java
  text := "import a.B;\nclass C \x7b void f() \x7b \x7d \x7d"
  tree := (Tree.ofRecords? [
    ⟨0, "program", 0, 0, 36, none⟩, ⟨1, "import_declaration", 0, 0, 11, none⟩,
    ⟨2, "import", 1, 0, 6, none⟩, ⟨2, "scoped_identifier", 0, 7, 10, none⟩,
    ⟨3, "identifier", 0, 7, 8, "scope"⟩, ⟨3, ".", 1, 8, 9, none⟩,
    ⟨3, "identifier", 0, 9, 10, "name"⟩, ⟨2, ";", 1, 10, 11, none⟩,
    ⟨1, "class_declaration", 0, 12, 36, none⟩, ⟨2, "class", 1, 12, 17, none⟩,
    ⟨2, "identifier", 0, 18, 19, "name"⟩, ⟨2, "class_body", 0, 20, 36, "body"⟩,
    ⟨3, "\x7b", 1, 20, 21, none⟩, ⟨3, "method_declaration", 0, 22, 34, none⟩,
    ⟨4, "void_type", 0, 22, 26, "type"⟩, ⟨4, "identifier", 0, 27, 28, "name"⟩,
    ⟨4, "formal_parameters", 0, 28, 30, "parameters"⟩, ⟨5, "(", 1, 28, 29, none⟩,
    ⟨5, ")", 1, 29, 30, none⟩, ⟨4, "block", 0, 31, 34, "body"⟩,
    ⟨5, "\x7b", 1, 31, 32, none⟩, ⟨5, "\x7d", 1, 33, 34, none⟩,
    ⟨3, "\x7d", 1, 35, 36, none⟩]).getD default

/-- That text has no annotation type, so everything in it is accounted for. -/
theorem build_accounts_imported :
    (build Java.frontEnd 10 30 imported).diagnostics = [] ∧
      AccountsForFunctions 30 (build Java.frontEnd 10 30 imported) ∧
      AccountsForClasses 30 (build Java.frontEnd 10 30 imported) ∧
      ∃ ns, IsMadeOf Java.frontEnd 30 imported ns (build Java.frontEnd 10 30 imported) ∧
        AccountsForImports Java.frontEnd imported ns (build Java.frontEnd 10 30 imported) := by
  have hnone : (build Java.frontEnd 10 30 imported).diagnostics = [] := by decide +kernel
  have hkinds : "annotation_type_declaration" ∉
      (build Java.frontEnd 10 30 imported).graph.nodes.map (·.type) := by decide +kernel
  obtain ⟨ns, -, hmade, hfunctions, hclasses, himports⟩ := build_accounts .java 10 30 imported hnone
  have hlisted : ∀ n ∈ ns, Java.isOmitted n = false := fun n hn =>
    beq_eq_false_iff_ne.mpr fun hk => hkinds (hk ▸ hmade.type_mem hn)
  exact ⟨hnone, hfunctions, hclasses.mpr fun n hn _ => hlisted n hn, ns, hmade,
    himports.mpr fun n hn _ => hlisted n hn⟩

/-- The text of an annotation type. -/
def annotation : Document where
  language := .java
  text := "@interface A \x7b \x7d"
  tree := (Tree.ofRecords? [
    ⟨0, "program", 0, 0, 16, none⟩, ⟨1, "annotation_type_declaration", 0, 0, 16, none⟩,
    ⟨2, "@interface", 1, 0, 10, none⟩, ⟨2, "identifier", 0, 11, 12, "name"⟩,
    ⟨2, "annotation_type_body", 0, 13, 16, "body"⟩, ⟨3, "\x7b", 1, 13, 14, none⟩,
    ⟨3, "\x7d", 1, 15, 16, none⟩]).getD default

/-- The text of an import from the future. -/
def future : Document where
  language := .python
  text := "from __future__ import annotations"
  tree := (Tree.ofRecords? [
    ⟨0, "module", 0, 0, 34, none⟩, ⟨1, "future_import_statement", 0, 0, 34, none⟩,
    ⟨2, "from", 1, 0, 4, none⟩, ⟨2, "__future__", 1, 5, 15, none⟩,
    ⟨2, "import", 1, 16, 22, none⟩, ⟨2, "dotted_name", 0, 23, 34, "name"⟩,
    ⟨3, "identifier", 0, 23, 34, none⟩]).getD default

/-- An annotation type is an interface of the graph that no class accounts for, and an import from
the future is an import that no entry accounts for.  Nothing is cut off and nothing goes wrong. -/
theorem build_unaccounted :
    ((build Java.frontEnd 10 30 annotation).diagnostics = [] ∧
      (build Java.frontEnd 10 30 annotation).isCut = false ∧
      ¬ AccountsForClasses 30 (build Java.frontEnd 10 30 annotation)) ∧
    ((build Python.frontEnd 10 30 future).diagnostics = [] ∧
      (build Python.frontEnd 10 30 future).isCut = false ∧
      ∀ ns, IsMadeOf Python.frontEnd 30 future ns (build Python.frontEnd 10 30 future) →
        ¬ AccountsForImports Python.frontEnd future ns (build Python.frontEnd 10 30 future)) := by
  have htypes : ((build Java.frontEnd 10 30 annotation).graph.nodes.filter
      (·.kind.isType)).length = 1 := by decide +kernel
  have hclasses : (build Java.frontEnd 10 30 annotation).declarations.classes = [] := by
    decide +kernel
  have himport : ⟨1, "future_import_statement", .importDecl, "from __future__ import anno...",
      some 1⟩ ∈ (build Python.frontEnd 10 30 future).graph.nodes := by decide +kernel
  have himports : (build Python.frontEnd 10 30 future).declarations.imports = [] := by
    decide +kernel
  refine ⟨⟨by decide +kernel, by decide +kernel, fun h => ?_⟩, by decide +kernel, by decide +kernel,
    fun ns hmade h => ?_⟩
  · have hlength := h.length_eq
    rw [htypes, hclasses] at hlength
    cases hlength
  · obtain ⟨n, hn, hk⟩ := hmade.exists_node himport
    obtain ⟨i, -, hi, -⟩ := h n hn (by rw [hk]; rfl)
    rw [himports] at hi
    cases hi

end CodeDiagram.Outline
