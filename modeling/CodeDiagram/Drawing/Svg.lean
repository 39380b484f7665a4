/-
# Drawings

A drawing is a title, an arrow for each edge and a disc for each node.  It is written as an SVG
document, one line for an arrow and two for a disc.
-/
import CodeDiagram.Diagram.Pipeline
import CodeDiagram.Drawing.Escape
import CodeDiagram.Drawing.Projection
import CodeDiagram.Number.Decimal

namespace CodeDiagram

/-! ## 1. Shapes -/

namespace Drawing

/-- The drawing of an edge. -/
structure Arrow where
  start : Point Float
  tip : Point Float

/-- The drawing of a node. -/
structure Disc where
  type : String
  line : Option Nat
  label : String
  centre : Point Float
  radius : Float
  color : String

end Drawing

/-- A title with the shapes below it, in the order they are drawn. -/
structure Drawing where
  title : String
  arrows : List Drawing.Arrow
  discs : List Drawing.Disc

namespace Drawing

/-- The arrow of an edge; none if an end has no place. -/
def Arrow.ofEdge? (positions : Positions) (f : Projection Float) (e : Graph.Edge) :
    Option Arrow := do
  let start ← positions.lookup e.source
  let tip ← positions.lookup e.target
  return ⟨f.apply start, f.apply tip⟩

/-- The disc of a node; none if it has no place.  A kind without a style is drawn like `other`. -/
def Disc.ofVertex? (positions : Positions) (styles : StyleTable) (f : Projection Float)
    (v : Graph.Vertex) : Option Disc := do
  let place ← positions.lookup v.id
  let style := (styles.lookup v.kind).getD NodeKind.other.style
  return {
    type := v.type
    line := v.line
    label := v.label
    centre := f.apply place
    radius := Float.ofNat style.size / 2
    color := style.color }

/-- The drawing of a graph. -/
def ofGraph (title : String) (g : Graph) (positions : Positions) (styles : StyleTable) : Drawing :=
  let f := Projection.fit (positions.map (·.2))
  { title
    arrows := g.edges.filterMap (Arrow.ofEdge? positions f)
    discs := g.nodes.filterMap (Disc.ofVertex? positions styles f) }

/-! ## 2. SVG -/

open Number (onePlace)

/-- The colour of arrows. -/
def arrowColor : String := "#888888"

/-- The lines before the first shape. -/
def header (title : String) : List String :=
  ["<svg xmlns=\"http://www.w3.org/2000/svg\" width=\"" ++ toString width ++ "\" height=\"" ++
      toString height ++ "\" viewBox=\"0 0 " ++ toString width ++ " " ++ toString height ++ "\">",
    "<defs><marker id=\"arrow\" viewBox=\"0 0 10 10\" refX=\"10\" refY=\"5\" markerWidth=\"6\" " ++
      "markerHeight=\"6\" orient=\"auto-start-reverse\"><path d=\"M 0 0 L 10 5 L 0 10 z\" fill=\"" ++
      arrowColor ++ "\"/></marker></defs>",
    "<rect width=\"100%\" height=\"100%\" fill=\"white\"/>",
    "<text x=\"" ++ toString (width / 2) ++ "\" y=\"28\" font-family=\"sans-serif\" " ++
      "font-size=\"20\" text-anchor=\"middle\">" ++ escape title ++ "</text>"]

/-- The line of an arrow. -/
def Arrow.line (a : Arrow) : String :=
  "<line x1=\"" ++ onePlace a.start.x ++ "\" y1=\"" ++ onePlace a.start.y ++
    "\" x2=\"" ++ onePlace a.tip.x ++ "\" y2=\"" ++ onePlace a.tip.y ++
    "\" stroke=\"" ++ arrowColor ++ "\" stroke-width=\"1\" marker-end=\"url(#arrow)\"/>"

/-- The lines of a disc: the circle, and the label below it. -/
def Disc.lines (d : Disc) : List String :=
  ["<g><title>" ++ escape d.type ++ " (line " ++ d.line.elim "-" toString ++
      ")</title><circle cx=\"" ++ onePlace d.centre.x ++ "\" cy=\"" ++ onePlace d.centre.y ++
      "\" r=\"" ++ onePlace d.radius ++ "\" fill=\"" ++ d.color ++
      "\" stroke=\"#333333\" stroke-width=\"0.5\"/>",
    "<text x=\"" ++ onePlace d.centre.x ++ "\" y=\"" ++ onePlace (d.centre.y + d.radius + 11) ++
      "\" font-family=\"sans-serif\" font-size=\"10\" text-anchor=\"middle\">" ++
      escape d.label ++ "</text></g>"]

/-- The lines of a drawing. -/
def lines (d : Drawing) : List String :=
  header d.title ++ d.arrows.map (·.line) ++ d.discs.flatMap (·.lines) ++ ["</svg>"]

/-- The SVG document of a drawing. -/
def svg (d : Drawing) : String := String.join (d.lines.map (· ++ "\n"))

end Drawing

/-- The drawing of an answer. -/
def Visualization.drawing (v : Visualization) : Drawing :=
  .ofGraph v.title v.graph v.positions v.styles

end CodeDiagram
