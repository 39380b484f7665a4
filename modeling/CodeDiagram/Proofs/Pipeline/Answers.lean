/-
# Every answer is whole

A request is refused only if no front end is registered for its language.  Any other gets an answer
whose graph, edges and places agree, whatever was asked for and whatever the settings are
(`run_answers`).  A text that cannot be read is answered with one node that tells the error; the
answer to any other has a node at least, for each of the three diagrams has something to show even
where it finds nothing.
-/
import CodeDiagram.Proofs.CallGraph.Framing
import CodeDiagram.Proofs.DataFlow.Uses
import CodeDiagram.Proofs.Graph.Indexing
import CodeDiagram.Proofs.Layout.Placement
import CodeDiagram.Proofs.Outline.Growing
import CodeDiagram.Proofs.Pipeline.Runs

namespace CodeDiagram

open Syntax

/-! ## 1. Diagrams -/

/-- Every outline has a node: that of the root. -/
theorem Outline.nodes_build_ne_nil (fe : FrontEnd) (limit labelLength : Nat) (d : Document) :
    (build fe limit labelLength d).graph.nodes ≠ [] := by
  have hvisit : ∀ (o : Outline) (v : Visit),
      (o.visit fe limit labelLength d v).1.graph.nodes ≠ [] := by
    intro o v
    rw [nodes_visit]
    simp
  rw [build, grow, if_neg (by simp)]
  exact grow_induction fe limit labelLength d (p := fun o => o.graph.nodes ≠ [])
    (q := fun _ => True) (fun o v _ _ => hvisit o v) (fun _ _ _ _ => trivial) _ _ _ (hvisit _ _)
    (fun _ _ => trivial)

/-- A call graph is sound and has a node: its functions are connected, and without functions there
is a placeholder. -/
theorem CallGraph.synthesize_whole (fe : FrontEnd) (functions : List FunctionInfo) (d : Document) :
    (synthesize fe functions (some d)).Sound ∧ (synthesize fe functions (some d)).nodes ≠ [] := by
  by_cases hf : functions = []
  · rw [synthesize, if_pos (by simp [hf])]
    exact ⟨Graph.Sound.empty.addNode _ _ _ _, by simp [Graph.placeholder]⟩
  · rw [synthesize_eq_wired fe hf]
    obtain ⟨hk, -⟩ := wired_linked fe functions d
    obtain ⟨f, hmem⟩ := List.exists_mem_of_ne_nil functions hf
    obtain ⟨v, ⟨hv, -⟩, -⟩ := hk.existsUnique_function (List.mem_map_of_mem hmem)
    exact ⟨hk.sound, List.ne_nil_of_mem (Graph.mem_nodesOf.mp hv).1⟩

/-- A data-flow graph has a node: if nothing else, the placeholder. -/
theorem DataFlow.nodes_synthesize_ne_nil (fe : FrontEnd) (functions : List FunctionInfo)
    (d : Document) : (synthesize fe functions d).nodes ≠ [] := by
  rw [synthesize]
  split
  · simp [Graph.placeholder]
  · rename_i hne
    exact fun h => hne (List.isEmpty_iff.mpr h)

namespace Pipeline

variable {p : Pipeline} {request : DiagramRequest} {fe : FrontEnd}

/-- **Whatever is drawn of a document is sound and has a node**, and no error is told. -/
theorem draw_whole (fe : FrontEnd) (limit labelLength : Nat) (diagram : DiagramKind)
    (d : Document) :
    (draw fe limit labelLength diagram d).1.Sound ∧
      (draw fe limit labelLength diagram d).1.nodes ≠ [] ∧
      (draw fe limit labelLength diagram d).2.1.parseError = none := by
  cases diagram with
  | outline =>
    exact ⟨Outline.build_sound fe limit labelLength d,
      Outline.nodes_build_ne_nil fe limit labelLength d, rfl⟩
  | callGraph =>
    obtain ⟨hs, hne⟩ := CallGraph.synthesize_whole fe
      (Outline.build fe limit labelLength d).metadata.functions d
    exact ⟨hs, hne, rfl⟩
  | dataFlow =>
    exact ⟨(DataFlow.synthesize_shows fe _ d).1, DataFlow.nodes_synthesize_ne_nil fe _ d, rfl⟩

/-! ## 2. Answers -/

/-- The parts of an answer agree: edges join nodes that are there, nodes are told apart, and the
places are those of the nodes. -/
structure IsWhole (v : Visualization) : Prop where
  joined : ∀ e ∈ v.graph.edges, e.source ∈ v.graph.ids ∧ e.target ∈ v.graph.ids
  nodup : v.graph.ids.Nodup
  keys : v.positions.map (·.1) = v.graph.ids

/-- An answer only tells an error: one node with its wording, at the origin, and nothing else. -/
structure TellsError (v : Visualization) (e : SyntaxError) : Prop where
  nodes : v.graph.nodes = [⟨0, "parse_error", .message, e.message, none⟩]
  edges : v.graph.edges = []
  metadata : v.metadata = { parseError := some e.message, totalNodes := 1 }
  diagnostics : v.diagnostics = []
  positions : v.positions = [(0, ⟨0, 0⟩)]

/-- A request is refused exactly if no front end is registered for its language. -/
theorem run_refuses (p : Pipeline) (request : DiagramRequest) :
    (∃ e, p.run request = .error e) ↔ request.language ∉ p.registry.frontEnds.map (·.1) := by
  rw [← lookup_isSome_iff_mem]
  cases hl : p.registry.frontEnds.lookup request.language with
  | none =>
    have hfind : p.registry.find request.language =
        .error (.unsupportedLanguage request.language.name) := by rw [Registry.find, hl]
    refine iff_of_true ⟨.unsupportedLanguage request.language.name, ?_⟩ (by simp)
    rw [run, hfind]
    rfl
  | some fe =>
    have hfind : p.registry.find request.language = .ok fe := by rw [Registry.find, hl]
    obtain ⟨v, hv, -⟩ := run_of_find p request hfind
    refine iff_of_false ?_ (by simp)
    rintro ⟨e, he⟩
    cases hv.symm.trans he

/-- The places of an answer are laid out for its graph. -/
theorem positions_of_run {v : Visualization} (h : p.run request = .ok v) :
    ∃ seed tree, v.positions =
      Placement.layout p.settings.layout v.graph seed tree request.expired := by
  cases hfe : p.registry.find request.language with
  | error e =>
    rw [run, hfe] at h
    cases h
  | ok fe =>
    rw [run, hfe] at h
    obtain rfl := Except.ok.inj h
    exact ⟨_, _, rfl⟩

/-- The graph of an answer is sound: it is drawn of a document, or one node tells the error. -/
theorem sound_of_run {v : Visualization} (h : p.run request = .ok v) : v.graph.Sound := by
  obtain ⟨fe, -, hdrawn⟩ := find_of_run h
  rw [show v.graph = (p.drawing request fe).1 from congrArg Prod.fst hdrawn]
  cases hparse : fe.parse (p.grammar request.language) request.source with
  | error e =>
    rw [drawing_of_error p request hparse]
    exact Graph.Sound.empty.addNode _ _ _ _
  | ok d =>
    rw [drawing_of_ok p request hparse]
    exact (draw_whole fe _ _ _ d).1

/-- **Every request for a registered language is answered**, and no other is.  The parts of the
answer agree; it only tells the error if the text cannot be read, and else it has a node and tells
none. -/
theorem run_answers (p : Pipeline) (request : DiagramRequest) :
    ((∃ e, p.run request = .error e) ↔ request.language ∉ p.registry.frontEnds.map (·.1)) ∧
    (request.language ∈ p.registry.frontEnds.map (·.1) →
      ∃ fe v, p.registry.find request.language = .ok fe ∧ p.run request = .ok v ∧ IsWhole v ∧
        match fe.parse (p.grammar request.language) request.source with
        | .error e => TellsError v e
        | .ok _ => v.metadata.parseError = none ∧ v.graph.nodes ≠ []) := by
  refine ⟨run_refuses p request, fun hmem => ?_⟩
  obtain ⟨fe, hl⟩ := Option.isSome_iff_exists.mp (lookup_isSome_iff_mem.mpr hmem)
  have hfind : p.registry.find request.language = .ok fe := by rw [Registry.find, hl]
  obtain ⟨v, hv, hdrawn⟩ := run_of_find p request hfind
  obtain ⟨seed, tree, hpositions⟩ := positions_of_run hv
  have hwhole : v.graph.Sound → IsWhole v := fun hs =>
    ⟨hs.joined, hs.nodup_ids, hpositions ▸ Placement.keys_layout _ _ _ _ _⟩
  refine ⟨fe, v, hfind, hv, ?_⟩
  cases hparse : fe.parse (p.grammar request.language) request.source with
  | error e =>
    rw [drawing_of_error p request hparse] at hdrawn
    obtain ⟨hgraph, hrest⟩ := Prod.mk.inj hdrawn
    obtain ⟨hmetadata, hdiagnostics⟩ := Prod.mk.inj hrest
    refine ⟨hwhole (hgraph ▸ Graph.Sound.empty.addNode _ _ _ _), ?_⟩
    exact {
      nodes := by rw [hgraph]; rfl
      edges := by rw [hgraph]; rfl
      metadata := hmetadata
      diagnostics := hdiagnostics
      positions := by rw [hpositions, hgraph]; exact Placement.layout_placeholder _ _ _ _ _ _ _ }
  | ok d =>
    rw [drawing_of_ok p request hparse] at hdrawn
    obtain ⟨hs, hne, herror⟩ := draw_whole fe (request.maxDepth.getD p.settings.pipeline.maxDepth)
      p.settings.pipeline.maxLabelLength request.diagram d
    rw [← hdrawn] at hs hne herror
    exact ⟨hwhole hs, herror, hne⟩

/-- A pipeline whose grammars read nothing. -/
def baffled : Pipeline where
  grammar _ text := .unread text

/-- A text that cannot be read is answered with its error. -/
theorem run_answers_baffled :
    Language.python ∈ baffled.registry.frontEnds.map (·.1) ∧
      ∃ v, baffled.run ⟨"x = (", .python, .dataFlow, none, false⟩ = .ok v ∧
        TellsError v ⟨1, .near "x = ("⟩ := by
  have hmem : Language.python ∈ baffled.registry.frontEnds.map (·.1) := by decide
  refine ⟨hmem, ?_⟩
  obtain ⟨fe, v, hfind, hv, -, htells⟩ :=
    (run_answers baffled ⟨"x = (", .python, .dataFlow, none, false⟩).2 hmem
  obtain rfl : Python.frontEnd = fe := Except.ok.inj hfind
  exact ⟨v, hv, htells⟩

end Pipeline

end CodeDiagram
