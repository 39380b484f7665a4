/-
# What is collected of the nodes that are kept

A walk through a document keeps some of its nodes (`Outline.Kept`), and the outline is made of these
(`build_kept`).  One collection goes along with the walk, and the nodes that are kept add to it one
after the other (`Language.collect`).  What comes out is what they would collect alone, put
together: a node that fails leaves nothing in it, and shows in the diagnostics and nowhere else
(`build_isCollected`).
-/
import CodeDiagram.Proofs.Outline.Collecting
import CodeDiagram.Proofs.Outline.Walking
import CodeDiagram.Syntax.Recorded

namespace CodeDiagram

open Syntax

namespace Outline

/-! ## 1. The nodes of an outline -/

/-- **The outline of a document is made of the nodes that a walk keeps.** -/
theorem build_kept (fe : FrontEnd) (limit labelLength : Nat) (d : Document) :
    ∃ ps, Kept d.root limit ps ∧
      IsMadeOf fe labelLength d (ps.map (·.node)) (build fe limit labelLength d) := by
  obtain ⟨ps, hkept, -, hbuild⟩ := build_eq_drawn_of_kept fe limit labelLength d
  rw [hbuild]
  exact ⟨ps, hkept, drawn_isMadeOf fe limit labelLength d ps⟩

end Outline

/-! ## 2. One node alone -/

/-- What a node collects from nothing: whether it fails, and what it leaves. -/
def Language.collected (l : Language) (d : Document) (n : Node) :
    Except ExtractionFault Unit × Declarations :=
  (l.collect d n).run.run {}

/-- A node does to any collection what it does to an empty one, and leaves it alone if it fails. -/
structure Language.CollectsApart (l : Language) (d : Document) (n : Node) : Prop where
  run_eq : ∀ ds, (l.collect d n).run.run ds = ((l.collected d n).1, ds ++ (l.collected d n).2)
  of_error : ∀ e, (l.collected d n).1 = .error e → ∀ ds, (l.collect d n).run.run ds = (.error e, ds)

namespace Language

variable (l : Language) (d : Document) (n : Node)

theorem collected_eq : l.collected d n =
    match l.frontEnd.declarations d n with
    | .ok new => (.ok (), new)
    | .error e => (.error e, {}) := by
  rw [collected, l.adds_collect d n {}]
  cases l.frontEnd.declarations d n with
  | ok new => rfl
  | error e => rfl

theorem collected_snd : (l.collected d n).2 = l.frontEnd.declared d n := by
  rw [collected_eq, FrontEnd.declared]
  cases l.frontEnd.declarations d n with
  | ok new => rfl
  | error e => rfl

theorem failure?_collected :
    failure? (l.collected d n).1 = failure? (l.frontEnd.declarations d n) := by
  rw [collected_eq]
  cases l.frontEnd.declarations d n with
  | ok new => rfl
  | error e => rfl

theorem collectsApart : l.CollectsApart d n where
  run_eq := l.collect_eq d n
  of_error := by
    intro e he ds
    rw [collected_eq] at he
    rw [l.adds_collect d n ds]
    cases hds : l.frontEnd.declarations d n with
    | ok new => simp [hds] at he
    | error e' =>
      simp only [hds] at he
      obtain rfl : e' = e := Except.error.inj he
      rfl

/-- **The run**: a collection that goes from node to node ends with what they collect alone. -/
theorem foldl_collect (ns : List Node) :
    ns.foldl (fun ds n => ((l.collect d n).run.run ds).2) {} =
      .collect (fun n => (l.collected d n).2) ns := by
  have hstep : ∀ (ds : Declarations) (n : Node),
      ((l.collect d n).run.run ds).2 = ds ++ (l.collected d n).2 := by
    intro ds n
    rw [l.collect_eq]
    rfl
  simp only [hstep]
  exact Declarations.foldl_append _ [] ns

end Language

/-! ## 3. One collection for all -/

namespace Outline

/-- What comes with an outline was collected of some nodes, one after the other, and of each as if
it were alone. -/
structure IsCollected (l : Language) (labelLength : Nat) (d : Document) (ns : List Node)
    (o : Outline) : Prop where
  nodes : o.graph.nodes = ns.mapIdx fun i n =>
    ⟨i, n.kind, l.frontEnd.classify n.kind, l.frontEnd.label labelLength d n, some (d.line n)⟩
  inPlace : o.metadata.toDeclarations =
    ns.foldl (fun ds n => ((l.collect d n).run.run ds).2) {}
  alone : o.metadata.toDeclarations = .collect (fun n => (l.collected d n).2) ns
  apart : ∀ n ∈ ns, l.CollectsApart d n
  /-- A diagnostic for a label and one for declarations, where they fail. -/
  diagnostics : o.diagnostics = (ns.mapIdx fun i n =>
    ((failure? (l.frontEnd.fullLabel d n)).toList ++ (failure? (l.collected d n).1).toList).map
      fun f => ⟨i, some (d.line n), f.message⟩).flatten

theorem IsMadeOf.isCollected {l : Language} {labelLength : Nat} {d : Document} {ns : List Node}
    {o : Outline} (h : IsMadeOf l.frontEnd labelLength d ns o) :
    IsCollected l labelLength d ns o := by
  have halone : o.metadata.toDeclarations = .collect (fun n => (l.collected d n).2) ns := by
    simp only [Language.collected_snd]
    exact h.declarations
  exact {
    nodes := h.nodes
    inPlace := by rw [halone, l.foldl_collect]
    alone := halone
    apart := fun n _ => l.collectsApart d n
    diagnostics := by
      simp only [Language.failure?_collected]
      exact h.diagnostics }

/-- **One node never affects the others.**  A walk keeps the nodes that lie within the limit, where
they are told apart; the declarations are what the nodes collect alone, put together in document
order, though all of them share one collection; a node that fails adds nothing to it; and the
diagnostics are the failures, in the same order. -/
theorem build_isCollected (l : Language) (limit labelLength : Nat) (d : Document) :
    ∃ ps, Kept d.root limit ps ∧ (d.root.ids.Nodup → Listing d.root limit ps) ∧
      IsCollected l labelLength d (ps.map (·.node)) (build l.frontEnd limit labelLength d) := by
  obtain ⟨ps, hkept, hmade⟩ := build_kept l.frontEnd limit labelLength d
  exact ⟨ps, hkept, hkept.listing, hmade.isCollected⟩

/-- A text that imports two names, of which the second lies outside the text. -/
def brokenImport : Document where
  language := .python
  text := "import a, b\nx = y\n"
  tree := (Tree.ofRecords? [
    ⟨0, "module", 0, 0, 18, none⟩, ⟨1, "import_statement", 0, 0, 11, none⟩,
    ⟨2, "dotted_name", 0, 7, 8, "name"⟩, ⟨2, ",", 1, 8, 9, none⟩,
    ⟨2, "dotted_name", 0, 10, 30, "name"⟩, ⟨3, "identifier", 0, 10, 30, none⟩,
    ⟨1, "expression_statement", 0, 12, 17, none⟩, ⟨2, "assignment", 0, 12, 17, none⟩,
    ⟨3, "identifier", 0, 12, 13, "left"⟩, ⟨3, "=", 1, 14, 15, none⟩,
    ⟨3, "identifier", 0, 16, 17, "right"⟩]).getD default

/-- Neither name is imported, the variable is bound all the same, and the two failures are told. -/
theorem build_isCollected_brokenImport :
    (∃ ps, Kept brokenImport.root 9 ps ∧ Listing brokenImport.root 9 ps ∧
      IsCollected .python 80 brokenImport (ps.map (·.node))
        (build Python.frontEnd 9 80 brokenImport)) ∧
    (build Python.frontEnd 9 80 brokenImport).metadata.toDeclarations =
      { bindings := [⟨"x", 2, .localName⟩] } ∧
    (build Python.frontEnd 9 80 brokenImport).diagnostics =
      [⟨1, some 1, "`dotted_name` node text is out of range"⟩,
       ⟨4, some 1, "`identifier` node text is out of range"⟩] := by
  have hroot : brokenImport.root.ids.Nodup := by decide +kernel
  obtain ⟨ps, hkept, hlisting, hcollected⟩ := build_isCollected .python 9 80 brokenImport
  exact ⟨⟨ps, hkept, hlisting hroot, hcollected⟩, by decide +kernel, by decide +kernel⟩

end Outline

end CodeDiagram
