/-
# From a request to a placed diagram

A request names a text, a language and a diagram.  It is refused only if no front end reads the
language: a text that cannot be read is answered with a diagram of one node that tells the error.
-/
import CodeDiagram.Diagram.CallGraph
import CodeDiagram.Diagram.DataFlow
import CodeDiagram.Diagram.Outline
import CodeDiagram.Diagram.Stats
import CodeDiagram.FrontEnd.Registry
import CodeDiagram.Language.Detection
import CodeDiagram.Layout.Placement
import CodeDiagram.Layout.Seed

namespace CodeDiagram

open Syntax

/-- What is asked for. -/
structure DiagramRequest where
  source : String
  language : Language
  diagram : DiagramKind
  /-- A depth limit in place of the one of the settings. -/
  maxDepth : Option Nat := none
  /-- The time for the request is over before the nodes are placed. -/
  expired : Bool := false

/-- All that is needed to draw a diagram. -/
structure Visualization where
  title : String
  language : Language
  diagram : DiagramKind
  graph : Graph
  metadata : Metadata
  positions : Positions
  diagnostics : List Diagnostic
  styles : StyleTable

/-- What requests are answered with: settings, front ends, and a grammar for each language. -/
structure Pipeline where
  settings : Settings := {}
  registry : Registry := .builtIn
  grammar : Language → Grammar

namespace Pipeline

/-- The graph of a diagram, the metadata and the diagnostics of a document. -/
def draw (fe : FrontEnd) (limit labelLength : Nat) (diagram : DiagramKind) (d : Document) :
    Graph × Metadata × List Diagnostic :=
  let outline := Outline.build fe limit labelLength d
  let metadata := outline.metadata
  let graph :=
    match diagram with
    | .outline => outline.graph
    | .callGraph => CallGraph.synthesize fe metadata.functions (some d)
    | .dataFlow => DataFlow.synthesize fe metadata.functions d
  (graph, metadata, outline.diagnostics)

/-- Answers a request. -/
def run (p : Pipeline) (request : DiagramRequest) : Except RequestError Visualization := do
  let fe ← p.registry.find request.language
  let parsed := fe.parse (p.grammar request.language) request.source
  let limit := request.maxDepth.getD p.settings.pipeline.maxDepth
  let (graph, metadata, diagnostics) :=
    match parsed with
    | .ok d => draw fe limit p.settings.pipeline.maxLabelLength request.diagram d
    | .error e => (parseErrorGraph e, parseErrorMetadata e, [])
  let seed := layoutSeed request.source request.language request.diagram
  let tree := request.diagram.isTree && parsed.toOption.isSome
  return {
    title := request.diagram.title
    language := request.language
    diagram := request.diagram
    graph
    metadata
    positions := Placement.layout p.settings.layout graph seed tree request.expired
    diagnostics
    styles := fullStyleTable }

/-- The statistics of a text. -/
def codeStats (p : Pipeline) (source : String) (language : Language) :
    Except RequestError CodeStats := do
  let fe ← p.registry.find language
  return CodeStats.collect fe (p.grammar language) source

end Pipeline

end CodeDiagram
