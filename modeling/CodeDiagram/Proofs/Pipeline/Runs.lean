/-
# What a request is answered with

A request is refused only if no front end reads its language (`find_of_run`).  Any other is answered
with the drawing of its text, or, if the text cannot be read, with what is told of the error
(`run_of_find`).
-/
import CodeDiagram.Diagram.Pipeline
import CodeDiagram.Syntax.Recorded

namespace CodeDiagram.Pipeline

open Syntax

/-- What is drawn for a request by a front end, and what is told beside it. -/
def drawing (p : Pipeline) (request : DiagramRequest) (fe : FrontEnd) :
    Graph × Metadata × List Diagnostic :=
  match fe.parse (p.grammar request.language) request.source with
  | .ok d =>
    draw fe (request.maxDepth.getD p.settings.pipeline.maxDepth)
      p.settings.pipeline.maxLabelLength request.diagram d
  | .error e => (parseErrorGraph e, parseErrorMetadata e, [])

variable {fe : FrontEnd}

theorem drawing_of_ok (p : Pipeline) (request : DiagramRequest) {d : Document}
    (h : fe.parse (p.grammar request.language) request.source = .ok d) :
    p.drawing request fe = draw fe (request.maxDepth.getD p.settings.pipeline.maxDepth)
      p.settings.pipeline.maxLabelLength request.diagram d := by
  rw [drawing, h]

theorem drawing_of_error (p : Pipeline) (request : DiagramRequest) {e : SyntaxError}
    (h : fe.parse (p.grammar request.language) request.source = .error e) :
    p.drawing request fe = (parseErrorGraph e, parseErrorMetadata e, []) := by
  rw [drawing, h]

/-- **A request whose language is read is answered** with its drawing. -/
theorem run_of_find (p : Pipeline) (request : DiagramRequest)
    (h : p.registry.find request.language = .ok fe) :
    ∃ v, p.run request = .ok v ∧ (v.graph, v.metadata, v.diagnostics) = p.drawing request fe := by
  rw [run, h, drawing]
  exact ⟨_, rfl, rfl⟩

/-- A request that is answered is answered with the drawing of some front end. -/
theorem find_of_run {p : Pipeline} {request : DiagramRequest} {v : Visualization}
    (h : p.run request = .ok v) :
    ∃ fe, p.registry.find request.language = .ok fe ∧
      (v.graph, v.metadata, v.diagnostics) = p.drawing request fe := by
  cases hfe : p.registry.find request.language with
  | error e =>
    rw [run, hfe] at h
    cases h
  | ok fe =>
    obtain ⟨w, hw, hdrawn⟩ := run_of_find p request hfe
    obtain rfl : w = v := Except.ok.inj (hw.symm.trans h)
    exact ⟨fe, rfl, hdrawn⟩

/-- An answer says which diagram it is, has the styles of all kinds and the diagram's title. -/
theorem fields_of_run {p : Pipeline} {request : DiagramRequest} {v : Visualization}
    (h : p.run request = .ok v) :
    v.diagram = request.diagram ∧ v.styles = fullStyleTable ∧ v.title = request.diagram.title := by
  cases hfe : p.registry.find request.language with
  | error e =>
    rw [run, hfe] at h
    cases h
  | ok fe =>
    rw [run, hfe] at h
    obtain rfl := Except.ok.inj h
    exact ⟨rfl, rfl, rfl⟩

/-- The pipeline that can read the text of a document, and no other. -/
def knowing (d : Document) : Pipeline where
  grammar _ := .recorded d.text [d.tree]

end CodeDiagram.Pipeline
