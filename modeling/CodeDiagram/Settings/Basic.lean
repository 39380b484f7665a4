/-
# Settings

What can be adjusted: how far diagrams go and how long labels are, how nodes are placed, and how
requests are served.  Each setting has a default.
-/

namespace CodeDiagram

/-- Limits of diagrams. -/
structure PipelineSettings where
  /-- The deepest level whose nodes are still looked into; the root is level zero. -/
  maxDepth : Nat := 10
  /-- The most characters of a label. -/
  maxLabelLength : Nat := 30
deriving Repr

/-- How nodes are placed. -/
structure LayoutSettings where
  /-- The turns of the force simulation. -/
  iterations : Nat := 50
  /-- The best length of an edge in the unit square; without one it follows from the number of
  nodes. -/
  springLength : Option Float := none
  /-- Half the side of the square that nodes are placed in. -/
  scale : Float := 1.0
deriving Repr

/-- How requests are served. -/
structure ServerSettings where
  host : String := "127.0.0.1"
  port : Nat := 3333
  /-- The most bytes of a source text. -/
  maxSourceBytes : Nat := 16777216
  /-- The most seconds for one request. -/
  timeoutSeconds : Nat := 30
deriving Repr

/-- All settings. -/
structure Settings where
  pipeline : PipelineSettings := {}
  layout : LayoutSettings := {}
  server : ServerSettings := {}
deriving Repr

end CodeDiagram
