/-
# What diagnostics are about

Diagnostics are noted while the outline of a text is built, and a node is named in them by its
identity in the outline.  Whatever diagram is asked for, they are the diagnostics of the outline,
and they are about its graph (`run_diagnostics_refer`).  A call graph or a data flow has identities
of its own, so what comes with it need not be about it (`run_diagnostics_dangle`).
-/
import CodeDiagram.Proofs.Outline.Growing
import CodeDiagram.Proofs.Pipeline.Runs

namespace CodeDiagram

open Syntax

/-- The request for the outline of the same text. -/
def DiagramRequest.forOutline (request : DiagramRequest) : DiagramRequest :=
  { request with diagram := .outline }

namespace Pipeline

/-! ## 1. Drawings -/

/-- What is told beside a diagram is the same for every diagram of a text. -/
theorem drawing_forOutline_snd (p : Pipeline) (request : DiagramRequest) (fe : FrontEnd) :
    (p.drawing request.forOutline fe).2 = (p.drawing request fe).2 := by
  cases hparse : fe.parse (p.grammar request.language) request.source with
  | ok d =>
    rw [drawing_of_ok p request hparse, drawing_of_ok p request.forOutline hparse]
    rfl
  | error e => rw [drawing_of_error p request hparse, drawing_of_error p request.forOutline hparse]

/-- The identities in the drawing of an outline are different. -/
theorem nodup_ids_drawing_forOutline (p : Pipeline) (request : DiagramRequest) (fe : FrontEnd) :
    (p.drawing request.forOutline fe).1.ids.Nodup := by
  cases hparse : fe.parse (p.grammar request.language) request.source with
  | ok d =>
    rw [drawing_of_ok p request.forOutline hparse]
    exact (Outline.build_sound _ _ _ d).nodup_ids
  | error e =>
    rw [drawing_of_error p request.forOutline hparse]
    exact (Graph.Sound.empty.addNode _ _ _ _).nodup_ids

/-- **The diagnostics of an outline are about it.** -/
theorem drawing_forOutline_refers (p : Pipeline) (request : DiagramRequest) (fe : FrontEnd) :
    ∀ x ∈ (p.drawing request.forOutline fe).2.2,
      x.RefersTo (p.drawing request.forOutline fe).1 := by
  cases hparse : fe.parse (p.grammar request.language) request.source with
  | ok d =>
    rw [drawing_of_ok p request.forOutline hparse]
    exact Outline.build_refers _ _ _ d
  | error e =>
    rw [drawing_of_error p request.forOutline hparse]
    exact fun x hx => absurd hx List.not_mem_nil

/-! ## 2. Answers -/

/-- **The diagnostics that a request is answered with are about the outline of its text**: each
names a node of it, and has the line of the node.  So they are about the diagram that was asked for,
if that is the outline. -/
theorem run_diagnostics_refer (p : Pipeline) (request : DiagramRequest) {v : Visualization}
    (hv : p.run request = .ok v) :
    ∃ outline, p.run request.forOutline = .ok outline ∧ outline.graph.ids.Nodup ∧
      outline.diagnostics = v.diagnostics ∧ (∀ x ∈ v.diagnostics, x.RefersTo outline.graph) ∧
      (request.diagram = .outline → outline = v) := by
  obtain ⟨fe, hfe, hdrawn⟩ := find_of_run hv
  obtain ⟨outline, houtline, hdrawn'⟩ := run_of_find p request.forOutline hfe
  have hdiagnostics : outline.diagnostics = v.diagnostics := by
    have hsnd := drawing_forOutline_snd p request fe
    rw [← hdrawn, ← hdrawn'] at hsnd
    exact (Prod.mk.inj hsnd).2
  have hnodup := nodup_ids_drawing_forOutline p request fe
  have hrefers := drawing_forOutline_refers p request fe
  rw [← hdrawn'] at hnodup hrefers
  refine ⟨outline, houtline, hnodup, hdiagnostics, hdiagnostics ▸ hrefers, fun hdiagram => ?_⟩
  have hsame : request.forOutline = request := by rw [DiagramRequest.forOutline, ← hdiagram]
  rw [hsame, hv] at houtline
  exact (Except.ok.inj houtline).symm

/-- The text of a call of what a call gives. -/
def callOfCall : Document where
  language := .python
  text := "f()()\n"
  tree := (Tree.ofRecords? [
    ⟨0, "module", 0, 0, 6, none⟩, ⟨1, "expression_statement", 0, 0, 5, none⟩,
    ⟨2, "call", 0, 0, 5, none⟩, ⟨3, "call", 0, 0, 3, "function"⟩,
    ⟨4, "identifier", 0, 0, 1, "function"⟩, ⟨4, "argument_list", 0, 1, 3, "arguments"⟩,
    ⟨5, "(", 1, 1, 2, none⟩, ⟨5, ")", 1, 2, 3, none⟩,
    ⟨3, "argument_list", 0, 3, 5, "arguments"⟩, ⟨4, "(", 1, 3, 4, none⟩,
    ⟨4, ")", 1, 4, 5, none⟩]).getD default

/-- The request for a diagram of that text. -/
def callRequest (diagram : DiagramKind) : DiagramRequest where
  source := callOfCall.text
  language := .python
  diagram

theorem python_found {diagram : DiagramKind} :
    (knowing callOfCall).registry.find (callRequest diagram).language = .ok Python.frontEnd := rfl

/-- In the outline of that text the diagnostic is about the outer call. -/
theorem run_diagnostics_refer_callOfCall :
    ∃ v, (knowing callOfCall).run (callRequest .outline) = .ok v ∧
      v.diagnostics = [⟨2, some 1, "`call` node has no resolvable name"⟩] ∧
      ∀ x ∈ v.diagnostics, x.RefersTo v.graph := by
  have hshown : ((knowing callOfCall).run (callRequest .outline)).toOption.map (·.diagnostics) =
      some [⟨2, some 1, "`call` node has no resolvable name"⟩] := by decide +kernel
  obtain ⟨v, hv, -⟩ := run_of_find (knowing callOfCall) (callRequest .outline) python_found
  obtain ⟨outline, -, -, -, hrefers, hsame⟩ := run_diagnostics_refer _ _ hv
  rw [hv] at hshown
  exact ⟨v, hv, Option.some.inj hshown, hsame rfl ▸ hrefers⟩

/-- Any other diagram of that text has one node, and the diagnostic is about none. -/
theorem dangles_callOfCall {diagram : DiagramKind} (hdiagram : diagram ≠ .outline) :
    ∃ v, (knowing callOfCall).run (callRequest diagram) = .ok v ∧ v.graph.ids = [0] ∧
      v.diagnostics = [⟨2, some 1, "`call` node has no resolvable name"⟩] ∧
      ∃ x ∈ v.diagnostics, ¬ x.RefersTo v.graph := by
  have hshown : ((knowing callOfCall).run (callRequest diagram)).toOption.map
      (fun v => (v.graph.ids, v.diagnostics)) =
        some ([0], [⟨2, some 1, "`call` node has no resolvable name"⟩]) := by
    cases diagram with
    | outline => exact absurd rfl hdiagram
    | callGraph => decide +kernel
    | dataFlow => decide +kernel
  obtain ⟨v, hv, -⟩ := run_of_find (knowing callOfCall) (callRequest diagram) python_found
  rw [hv] at hshown
  obtain ⟨hids, hdiagnostics⟩ := Prod.mk.inj (Option.some.inj hshown)
  refine ⟨v, hv, hids, hdiagnostics, _, hdiagnostics ▸ List.mem_cons_self, fun hrefers => ?_⟩
  have hmem := hrefers.mem_ids
  rw [hids] at hmem
  exact absurd hmem (by decide)

/-- So what comes with the call graph and with the data flow dangles. -/
theorem run_diagnostics_dangle :
    (∃ v, (knowing callOfCall).run (callRequest .callGraph) = .ok v ∧ v.graph.ids = [0] ∧
      v.diagnostics = [⟨2, some 1, "`call` node has no resolvable name"⟩] ∧
      ∃ x ∈ v.diagnostics, ¬ x.RefersTo v.graph) ∧
    ∃ v, (knowing callOfCall).run (callRequest .dataFlow) = .ok v ∧ v.graph.ids = [0] ∧
      v.diagnostics = [⟨2, some 1, "`call` node has no resolvable name"⟩] ∧
      ∃ x ∈ v.diagnostics, ¬ x.RefersTo v.graph :=
  ⟨dangles_callOfCall (by decide), dangles_callOfCall (by decide)⟩

end Pipeline

end CodeDiagram
