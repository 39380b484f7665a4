/-
# Answers as JSON

Graphs, metadata, places and statistics as JSON values.  What is absent has no member, except that
lists that may not be left out are written even if they are empty.
-/
import CodeDiagram.Diagram.Pipeline
import CodeDiagram.Json.Basic

namespace CodeDiagram

open Json

/-! ## 1. Graphs -/

/-- A node. -/
def Graph.Vertex.toJson (v : Graph.Vertex) : Json :=
  .obj ([("id", nat v.id), ("type", .str v.type), ("kind", .str v.kind.name),
    ("label", .str v.label)] ++ member? "line" (v.line.map nat))

/-- An edge. -/
def Graph.Edge.toJson (e : Graph.Edge) : Json :=
  .obj ([("source", nat e.source), ("target", nat e.target)] ++
    member? "relation" (e.relation.map fun r => .str r.name))

/-- A graph. -/
def Graph.toJson (g : Graph) : Json :=
  .obj [("nodes", .arr (g.nodes.map (·.toJson))), ("edges", .arr (g.edges.map (·.toJson)))]

/-! ## 2. Metadata -/

/-- A list of strings. -/
def stringsToJson (ss : List String) : Json := .arr (ss.map .str)

/-- A function. -/
def FunctionInfo.toJson (f : FunctionInfo) : Json :=
  .obj ([("name", .str f.name), ("line", nat f.line), ("parameters", stringsToJson f.parameters)] ++
    member? "return_type" (f.returnType.map .str) ++
    member? "modifiers" (if f.modifiers.isEmpty then none else some (stringsToJson f.modifiers)))

/-- A type that another builds on. -/
def Supertype.toJson (s : Supertype) : Json :=
  .obj [("name", .str s.name), ("relation", .str s.relation.name)]

/-- A type. -/
def ClassInfo.toJson (c : ClassInfo) : Json :=
  .obj [("name", .str c.name), ("line", nat c.line),
    ("supertypes", .arr (c.supertypes.map (·.toJson)))]

/-- A variable. -/
def VariableInfo.toJson (v : VariableInfo) : Json :=
  .obj [("name", .str v.name), ("line", nat v.line), ("binding", .str v.binding.name)]

/-- What sets an import apart. -/
def ImportFlags.toJson (f : ImportFlags) : Json :=
  .obj [("is_static", .bool f.isStatic), ("is_wildcard", .bool f.isWildcard),
    ("is_from", .bool f.isFrom)]

/-- An import. -/
def ImportInfo.toJson (i : ImportInfo) : Json :=
  .obj ([("path", .str i.path)] ++ member? "alias" (i.renamedTo.map .str) ++
    [("line", nat i.line), ("flags", i.flags.toJson)])

/-- All metadata. -/
def Metadata.toJson (m : Metadata) : Json :=
  .obj ([("functions", .arr (m.functions.map (·.toJson))),
    ("classes", .arr (m.classes.map (·.toJson))),
    ("variables", .arr (m.bindings.map (·.toJson))),
    ("imports", .arr (m.imports.map (·.toJson)))] ++
    member? "parse_error" (m.parseError.map .str) ++
    [("total_nodes", nat m.totalNodes), ("max_depth_reached", .bool m.maxDepthReached)])

/-! ## 3. Answers -/

/-- A place. -/
def Point.toJson (p : Point Float) : Json := .obj [("x", .float p.x), ("y", .float p.y)]

/-- Places under the identities of their nodes. -/
def Positions.toJson (ps : Positions) : Json :=
  .obj (ps.map fun (id, p) => (toString id, p.toJson))

/-- A diagnostic. -/
def Diagnostic.toJson (d : Diagnostic) : Json :=
  .obj ([("node", nat d.node)] ++ member? "line" (d.line.map nat) ++
    [("message", .str d.message)])

/-- A style table. -/
def StyleTable.toJson (t : StyleTable) : Json :=
  .obj (t.map fun (kind, style) =>
    (kind.name, .obj [("color", .str style.color), ("size", nat style.size)]))

/-- All that is needed to draw a diagram. -/
def Visualization.toJson (v : Visualization) : Json :=
  .obj ([("title", .str v.title), ("language", .str v.language.name),
    ("diagram", .str v.diagram.name), ("graph", v.graph.toJson), ("metadata", v.metadata.toJson),
    ("positions", Positions.toJson v.positions)] ++
    member? "diagnostics"
      (if v.diagnostics.isEmpty then none else some (.arr (v.diagnostics.map (·.toJson)))) ++
    [("styles", StyleTable.toJson v.styles)])

/-- Statistics. -/
def CodeStats.toJson (s : CodeStats) : Json :=
  .obj ([("lines_of_code", nat s.linesOfCode), ("characters", nat s.characters),
    ("functions", nat s.functions), ("classes", nat s.classes)] ++
    member? "parse_error" (s.parseError.map .str))

end CodeDiagram
