/-
# Pictures of answers

The picture of an answer has an arrow for every edge of the graph and a disc for every node, in
order, and nothing else (`svg_depicts`), whatever is written in labels, types and titles.

* An edge or a node without a place would be left out.  There is none: an answer has a place for
  each of its nodes, and its edges join nodes.
* What is written are marks (`svg_eq_write`).  Their tags are made of fixed words, colours and
  numbers, none of which has a bracket in it (`isPlain_marks`), and everything else is in the texts
  behind them.
-/
import CodeDiagram.Drawing.Svg
import CodeDiagram.Proofs.Drawing.Markup
import CodeDiagram.Proofs.Number.Digits
import CodeDiagram.Proofs.Pipeline.Answers
import CodeDiagram.Proofs.Text.Characters

namespace CodeDiagram

namespace Drawing

open Number (onePlace)
open Text (Within within_append within_ofList)

/-! ## 1. Numbers -/

/-- The characters of words and numbers inside tags: those of ASCII that are printed, without the
brackets. -/
def IsTagChar (c : Char) : Prop := 0x20 ≤ c.toNat ∧ c.toNat < 0x7F ∧ c ≠ '<' ∧ c ≠ '>'

instance : DecidablePred IsTagChar := fun _ => inferInstanceAs (Decidable (_ ∧ _))

theorem isTagChar_of_isDigit {c : Char} (h : Number.isDigit c = true) : IsTagChar c := by
  obtain ⟨hlow, hhigh⟩ := Bool.and_eq_true_iff.mp h
  have hlow : 48 ≤ c.toNat := of_decide_eq_true hlow
  have hhigh : c.toNat ≤ 57 := of_decide_eq_true hhigh
  refine ⟨by omega, by omega, ?_, ?_⟩
  · rintro rfl
    cases h
  · rintro rfl
    cases h

theorem within_withPoint (n places : Nat) : Within IsTagChar (Number.withPoint n places) := by
  have hdigits : ∀ c ∈ Number.padded n places, IsTagChar c :=
    fun c hc => isTagChar_of_isDigit (Number.isDigit_of_mem_padded hc)
  rw [Number.withPoint_eq, within_ofList]
  refine List.forall_mem_append.mpr ⟨fun c hc => hdigits c (List.mem_of_mem_take hc),
    List.forall_mem_cons.mpr ⟨by decide, fun c hc => hdigits c (List.mem_of_mem_drop hc)⟩⟩

theorem within_signed {text : String} (h : Within IsTagChar text) (negative : Bool) :
    Within IsTagChar (Number.signed negative text) := by
  cases negative with
  | false => exact h
  | true =>
    rw [Number.signed, if_pos rfl]
    exact within_append.mpr ⟨by decide, h⟩

/-- A number is written in such characters, even if it is none. -/
@[simp] theorem within_onePlace (x : Float) : Within IsTagChar (onePlace x) := by
  rw [onePlace]
  split
  · decide
  · exact within_signed (by decide) _
  · exact within_signed (within_withPoint _ _) _

/-- Digits are written as they are. -/
theorem flatMap_escapeChar_of_isDigit {cs : List Char} (h : ∀ c ∈ cs, Number.isDigit c = true) :
    cs.flatMap escapeChar = cs := by
  induction cs with
  | nil => rfl
  | cons c cs ih =>
    obtain ⟨hc, hcs⟩ := List.forall_mem_cons.mp h
    have hself : escapeChar c = [c] := by
      unfold escapeChar
      split
      case h_6 => rfl
      all_goals cases hc
    rw [List.flatMap_cons, hself, ih hcs, List.singleton_append]

/-- Lines are written as they are, also if there is none. -/
theorem escape_line (line : Option Nat) :
    escape (line.elim "-" toString) = line.elim "-" toString := by
  cases line with
  | none => decide
  | some n =>
    rw [Option.elim_some, escape, flatMap_escapeChar_of_isDigit, String.ofList_toList]
    rw [Number.toList_toString]
    exact fun c => Number.isDigit_of_mem_toDigits

/-! ## 2. The marks of a drawing -/

/-- A tag and a text behind it. -/
def mark (tag text : String) : Mark := ⟨tag.toList, text.toList⟩

/-- The mark that opens a drawing. -/
def svgMark : Mark :=
  mark ("svg xmlns=\"http://www.w3.org/2000/svg\" width=\"" ++ toString width ++ "\" height=\"" ++
    toString height ++ "\" viewBox=\"0 0 " ++ toString width ++ " " ++ toString height ++ "\"") "\n"

/-- The marks of the tip that arrows have. -/
def tipMarks : List Mark :=
  [mark "defs" "",
    mark ("marker id=\"arrow\" viewBox=\"0 0 10 10\" refX=\"10\" refY=\"5\" markerWidth=\"6\" " ++
      "markerHeight=\"6\" orient=\"auto-start-reverse\"") "",
    mark ("path d=\"M 0 0 L 10 5 L 0 10 z\" fill=\"" ++ arrowColor ++ "\"/") "",
    mark "/marker" "",
    mark "/defs" "\n"]

/-- The mark of the background. -/
def backgroundMark : Mark := mark "rect width=\"100%\" height=\"100%\" fill=\"white\"/" "\n"

/-- The marks of a title. -/
def titleMarks (title : String) : List Mark :=
  [mark ("text x=\"" ++ toString (width / 2) ++ "\" y=\"28\" font-family=\"sans-serif\" " ++
      "font-size=\"20\" text-anchor=\"middle\"") title,
    mark "/text" "\n"]

/-- The mark of an arrow. -/
def Arrow.mark (a : Arrow) : Mark :=
  Drawing.mark ("line x1=\"" ++ onePlace a.start.x ++ "\" y1=\"" ++ onePlace a.start.y ++
    "\" x2=\"" ++ onePlace a.tip.x ++ "\" y2=\"" ++ onePlace a.tip.y ++
    "\" stroke=\"" ++ arrowColor ++ "\" stroke-width=\"1\" marker-end=\"url(#arrow)\"/") "\n"

/-- The marks of a disc: the circle with its title, and the label below it. -/
def Disc.marks (d : Disc) : List Mark :=
  [mark "g" "",
    mark "title" (d.type ++ " (line " ++ d.line.elim "-" toString ++ ")"),
    mark "/title" "",
    mark ("circle cx=\"" ++ onePlace d.centre.x ++ "\" cy=\"" ++ onePlace d.centre.y ++
      "\" r=\"" ++ onePlace d.radius ++ "\" fill=\"" ++ d.color ++
      "\" stroke=\"#333333\" stroke-width=\"0.5\"/") "\n",
    mark ("text x=\"" ++ onePlace d.centre.x ++ "\" y=\"" ++
      onePlace (d.centre.y + d.radius + 11) ++
      "\" font-family=\"sans-serif\" font-size=\"10\" text-anchor=\"middle\"") d.label,
    mark "/text" "",
    mark "/g" "\n"]

/-- The marks before the first shape. -/
def headerMarks (title : String) : List Mark :=
  svgMark :: tipMarks ++ backgroundMark :: titleMarks title

/-- The marks of a drawing, in the order they are written. -/
def marks (d : Drawing) : List Mark :=
  headerMarks d.title ++ d.arrows.map (·.mark) ++ d.discs.flatMap (·.marks) ++ [mark "/svg" "\n"]

/-- The drawing with its title, types and labels left blank. -/
def blank (d : Drawing) : Drawing where
  title := ""
  arrows := d.arrows
  discs := d.discs.map fun disc => { disc with type := "", label := "" }

/-- The tags of a drawing do not depend on its title, types and labels. -/
theorem tags_blank (d : Drawing) : d.blank.marks.map (·.tag) = d.marks.map (·.tag) := by
  simp only [marks, blank, List.map_append, List.map_flatMap, List.flatMap_map]
  rfl

/-! ## 3. What is written -/

/-- A line with its end. -/
def ended (line : String) : List Char := (line ++ "\n").toList

theorem write_mark (tag text : String) :
    (mark tag text).write = ("<" ++ tag ++ ">" ++ escape text).toList := by
  simp [mark, Mark.write, Mark.part, escape]

theorem escape_append (s t : String) : escape (s ++ t) = escape s ++ escape t := by
  rw [escape, String.toList_append, List.flatMap_append, String.ofList_append, escape, escape]

theorem escape_newline : escape "\n" = "\n" := by decide

theorem escape_empty : escape "" = "" := rfl

theorem write_arrow (a : Arrow) : ended a.line = a.mark.write := by
  -- the brackets are parts of the first word and of the last
  have hopen : "<line x1=\"" = "<" ++ "line x1=\"" := rfl
  have hclose : "\" stroke-width=\"1\" marker-end=\"url(#arrow)\"/>" =
      "\" stroke-width=\"1\" marker-end=\"url(#arrow)\"/" ++ ">" := rfl
  unfold ended Arrow.line Arrow.mark
  rw [write_mark, escape_newline, hopen, hclose]
  simp only [String.append_assoc]

theorem write_disc (d : Disc) : d.lines.flatMap ended = d.marks.flatMap Mark.write := by
  have hopen : "<g><title>" = "<" ++ "g" ++ ">" ++ "<" ++ "title" ++ ">" := rfl
  have hcircle : ")</title><circle cx=\"" =
      ")" ++ "<" ++ "/title" ++ ">" ++ "<" ++ "circle cx=\"" := rfl
  have hstroke : "\" stroke=\"#333333\" stroke-width=\"0.5\"/>" =
      "\" stroke=\"#333333\" stroke-width=\"0.5\"/" ++ ">" := rfl
  have htext : "<text x=\"" = "<" ++ "text x=\"" := rfl
  have hfont : "\" font-family=\"sans-serif\" font-size=\"10\" text-anchor=\"middle\">" =
      "\" font-family=\"sans-serif\" font-size=\"10\" text-anchor=\"middle\"" ++ ">" := rfl
  have hclose : "</text></g>" = "<" ++ "/text" ++ ">" ++ "<" ++ "/g" ++ ">" := rfl
  have hword : escape " (line " = " (line " := by decide
  have hbracket : escape ")" = ")" := by decide
  unfold Disc.lines Disc.marks
  rw [hopen, hcircle, hstroke, htext, hfont, hclose]
  simp only [ended, List.flatMap_cons, List.flatMap_nil, List.append_nil, write_mark,
    escape_append, escape_line, hword, hbracket, escape_newline, escape_empty,
    String.append_empty, ← String.toList_append, String.append_assoc]

theorem write_header (title : String) : (header title).flatMap ended =
    (headerMarks title).flatMap Mark.write := by
  have hopen : "<svg xmlns=\"http://www.w3.org/2000/svg\" width=\"" =
      "<" ++ "svg xmlns=\"http://www.w3.org/2000/svg\" width=\"" := rfl
  have hsize : "\">" = "\"" ++ ">" := rfl
  have hmarker :
      "<defs><marker id=\"arrow\" viewBox=\"0 0 10 10\" refX=\"10\" refY=\"5\" markerWidth=\"6\" " =
      "<" ++ "defs" ++ ">" ++ "<" ++
      "marker id=\"arrow\" viewBox=\"0 0 10 10\" refX=\"10\" refY=\"5\" markerWidth=\"6\" " := rfl
  have hpath :
      "markerHeight=\"6\" orient=\"auto-start-reverse\"><path d=\"M 0 0 L 10 5 L 0 10 z\" fill=\"" =
      "markerHeight=\"6\" orient=\"auto-start-reverse\"" ++ ">" ++ "<" ++
      "path d=\"M 0 0 L 10 5 L 0 10 z\" fill=\"" := rfl
  have hdefs : "\"/></marker></defs>" =
      "\"/" ++ ">" ++ "<" ++ "/marker" ++ ">" ++ "<" ++ "/defs" ++ ">" := rfl
  have hrect : "<rect width=\"100%\" height=\"100%\" fill=\"white\"/>" =
      "<" ++ "rect width=\"100%\" height=\"100%\" fill=\"white\"/" ++ ">" := rfl
  have htext : "<text x=\"" = "<" ++ "text x=\"" := rfl
  have hfont : "font-size=\"20\" text-anchor=\"middle\">" =
      "font-size=\"20\" text-anchor=\"middle\"" ++ ">" := rfl
  have hclose : "</text>" = "<" ++ "/text" ++ ">" := rfl
  unfold header headerMarks svgMark tipMarks backgroundMark titleMarks
  rw [hopen, hsize, hmarker, hpath, hdefs, hrect, htext, hfont, hclose]
  simp only [ended, List.flatMap_cons, List.flatMap_append, List.flatMap_nil, List.append_nil,
    write_mark, escape_newline, escape_empty, String.append_empty, ← String.toList_append,
    String.append_assoc]

/-- **A document is the marks of its drawing**, one after the other. -/
theorem svg_eq_write (d : Drawing) : d.svg.toList = d.marks.flatMap Mark.write := by
  have hlast : ended "</svg>" = (mark "/svg" "\n").write := by decide
  have hlines : d.svg.toList = d.lines.flatMap ended := by
    rw [svg, String.toList_join, List.flatMap_map]
    rfl
  rw [hlines, lines, marks, List.flatMap_append, List.flatMap_append, List.flatMap_append,
    List.flatMap_append, List.flatMap_append, List.flatMap_append, write_header,
    List.flatMap_map, List.flatMap_map, List.flatMap_assoc, List.flatMap_assoc,
    List.flatMap_singleton, List.flatMap_singleton, hlast]
  simp only [write_arrow, write_disc]

/-! ## 4. Tags -/

section Tags

variable {P : Char → Prop}

theorem forall_tag_mark {tag text : String} :
    (∀ c ∈ (mark tag text).tag, P c) ↔ Within P tag := .rfl

variable (hP : ∀ c, IsTagChar c → P c)
include hP

theorem tag_arrow (a : Arrow) : ∀ c ∈ a.mark.tag, P c := by
  have hplace : ∀ x, Within P (onePlace x) := fun x => (within_onePlace x).mono hP
  unfold Arrow.mark
  simp only [forall_tag_mark, within_append, hplace, and_true]
  and_intros <;> exact Within.mono (by decide +kernel) hP

theorem tag_disc {d : Disc} (h : Within P d.color) : ∀ m ∈ d.marks, ∀ c ∈ m.tag, P c := by
  have hplace : ∀ x, Within P (onePlace x) := fun x => (within_onePlace x).mono hP
  unfold Disc.marks
  simp only [List.forall_mem_cons, List.not_mem_nil, forall_tag_mark, within_append, hplace, h,
    and_true, false_implies, implies_true]
  and_intros <;> exact Within.mono (by decide +kernel) hP

theorem tag_header (title : String) : ∀ m ∈ headerMarks title, ∀ c ∈ m.tag, P c := by
  have hheader : ∀ m ∈ headerMarks title, ∀ c ∈ m.tag, IsTagChar c := by
    simp only [headerMarks, svgMark, tipMarks, backgroundMark, titleMarks, List.cons_append,
      List.nil_append, List.forall_mem_cons, forall_tag_mark, List.not_mem_nil, false_implies,
      implies_true, and_true]
    decide +kernel
  exact fun m hm c hc => hP c (hheader m hm c hc)

/-- **The characters of tags** are those of fixed words and numbers, and of the colours. -/
theorem tag_marks {d : Drawing} (h : ∀ disc ∈ d.discs, Within P disc.color) :
    ∀ m ∈ d.marks, ∀ c ∈ m.tag, P c := by
  have hlast : ∀ c ∈ (mark "/svg" "\n").tag, IsTagChar c := forall_tag_mark.mpr (by decide +kernel)
  rw [marks]
  refine List.forall_mem_append.mpr ⟨List.forall_mem_append.mpr ⟨List.forall_mem_append.mpr
    ⟨tag_header hP d.title, ?_⟩, ?_⟩, ?_⟩
  · exact List.forall_mem_map.mpr fun a _ => tag_arrow hP a
  · intro m hm
    obtain ⟨disc, hdisc, hm⟩ := List.mem_flatMap.mp hm
    exact tag_disc hP (h disc hdisc) m hm
  · exact List.forall_mem_singleton.mpr fun c hc => hP c (hlast c hc)

end Tags

theorem isPlain_iff {cs : List Char} : IsPlain cs ↔ ∀ c ∈ cs, c ≠ '<' ∧ c ≠ '>' :=
  ⟨fun h _ hc => ⟨fun heq => h.1 (heq ▸ hc), fun heq => h.2 (heq ▸ hc)⟩,
    fun h => ⟨fun hc => (h _ hc).1 rfl, fun hc => (h _ hc).2 rfl⟩⟩

/-- There are no brackets inside tags, if there are none in the colours. -/
theorem isPlain_marks {d : Drawing} (h : ∀ disc ∈ d.discs, IsPlain disc.color.toList) :
    ∀ m ∈ d.marks, IsPlain m.tag := fun m hm =>
  isPlain_iff.mpr (tag_marks (fun _ h => h.2.2) (fun disc hdisc => isPlain_iff.mp (h disc hdisc))
    m hm)

/-! ## 5. Counting -/

/-- Whether the tag of a mark begins with a name. -/
def Mark.begins (name : String) (m : Mark) : Bool := name.toList.isPrefixOf m.tag

/-- Whether a mark closes the drawing. -/
def Mark.isLast (m : Mark) : Bool := m.tag == "/svg".toList

theorem countP_header (title : String) :
    (headerMarks title).countP (Mark.begins "circle") = 0 ∧
      (headerMarks title).countP (Mark.begins "line") = 0 ∧
      (headerMarks title).countP (Mark.begins "svg") = 1 ∧
      (headerMarks title).countP Mark.isLast = 0 := by
  unfold headerMarks svgMark tipMarks backgroundMark titleMarks
  simp only [mark, String.toList_append, List.append_assoc]
  exact ⟨rfl, rfl, rfl, rfl⟩

theorem countP_arrow (a : Arrow) :
    [a.mark].countP (Mark.begins "circle") = 0 ∧ [a.mark].countP (Mark.begins "line") = 1 ∧
      [a.mark].countP (Mark.begins "svg") = 0 ∧ [a.mark].countP Mark.isLast = 0 := by
  unfold Arrow.mark
  simp only [mark, String.toList_append, List.append_assoc]
  exact ⟨rfl, rfl, rfl, rfl⟩

theorem countP_disc (d : Disc) :
    d.marks.countP (Mark.begins "circle") = 1 ∧ d.marks.countP (Mark.begins "line") = 0 ∧
      d.marks.countP (Mark.begins "svg") = 0 ∧ d.marks.countP Mark.isLast = 0 := by
  unfold Disc.marks
  simp only [mark, String.toList_append, List.append_assoc]
  exact ⟨rfl, rfl, rfl, rfl⟩

/-- What is counted of a drawing, if as many are counted of each arrow as of any other, and of each
disc. -/
theorem countP_marks {q : Mark → Bool} {a c : Nat} (ha : ∀ arrow : Arrow, [arrow.mark].countP q = a)
    (hc : ∀ disc : Disc, disc.marks.countP q = c) (d : Drawing) :
    d.marks.countP q = (headerMarks d.title).countP q + a * d.arrows.length +
      c * d.discs.length + [mark "/svg" "\n"].countP q := by
  have harrows : (d.arrows.map (·.mark)).countP q = a * d.arrows.length := by
    induction d.arrows with
    | nil => rfl
    | cons arrow arrows ih =>
      rw [List.map_cons, ← List.singleton_append, List.countP_append, ha, ih, List.length_cons,
        Nat.mul_succ, Nat.add_comm]
  have hdiscs : (d.discs.flatMap (·.marks)).countP q = c * d.discs.length := by
    induction d.discs with
    | nil => rfl
    | cons disc discs ih =>
      rw [List.flatMap_cons, List.countP_append, hc, ih, List.length_cons, Nat.mul_succ,
        Nat.add_comm]
  rw [marks, List.countP_append, List.countP_append, List.countP_append, harrows, hdiscs]

/-- **A drawing is one element** with a circle in it for each disc and a line for each arrow. -/
theorem counts_marks (d : Drawing) :
    d.marks.countP (Mark.begins "circle") = d.discs.length ∧
      d.marks.countP (Mark.begins "line") = d.arrows.length ∧
      d.marks.countP (Mark.begins "svg") = 1 ∧ d.marks.countP Mark.isLast = 1 := by
  obtain ⟨hcircle, hline, hsvg, hlast⟩ := countP_header d.title
  have hend : [mark "/svg" "\n"].countP (Mark.begins "circle") = 0 ∧
      [mark "/svg" "\n"].countP (Mark.begins "line") = 0 ∧
      [mark "/svg" "\n"].countP (Mark.begins "svg") = 0 ∧
      [mark "/svg" "\n"].countP Mark.isLast = 1 := by decide
  refine ⟨?_, ?_, ?_, ?_⟩
  · rw [countP_marks (fun a => (countP_arrow a).1) (fun c => (countP_disc c).1), hcircle, hend.1]
    omega
  · rw [countP_marks (fun a => (countP_arrow a).2.1) (fun c => (countP_disc c).2.1), hline,
      hend.2.1]
    omega
  · rw [countP_marks (fun a => (countP_arrow a).2.2.1) (fun c => (countP_disc c).2.2.1), hsvg,
      hend.2.2.1]
    omega
  · rw [countP_marks (fun a => (countP_arrow a).2.2.2) (fun c => (countP_disc c).2.2.2), hlast,
      hend.2.2.2]
    omega

end Drawing

/-! ## 6. Pictures -/

/-- How the places of an answer are stretched over the canvas. -/
def Visualization.projection (v : Visualization) : Drawing.Projection Float :=
  .fit (v.positions.map (·.2))

/-- An arrow joins the places of the ends of an edge. -/
def Drawing.Arrow.Joins (v : Visualization) (e : Graph.Edge) (a : Drawing.Arrow) : Prop :=
  ∃ start tip, v.positions.lookup e.source = some start ∧ v.positions.lookup e.target = some tip ∧
    a = ⟨v.projection.apply start, v.projection.apply tip⟩

/-- A disc at the place of a node shows the node in the style of its kind. -/
def Drawing.Disc.Shows (v : Visualization) (n : Graph.Vertex) (d : Drawing.Disc) : Prop :=
  ∃ place, v.positions.lookup n.id = some place ∧
    d = { type := n.type
          line := n.line
          label := n.label
          centre := v.projection.apply place
          radius := Float.ofNat n.kind.style.size / 2
          color := n.kind.style.color }

/-- A document shows an answer: all of its graph, and nothing else. -/
structure Depicts (svg : List Char) (v : Visualization) : Prop where
  /-- There is an arrow for each edge, and a disc for each node, in order. -/
  arrows : List.Forall₂ (Drawing.Arrow.Joins v) v.graph.edges v.drawing.arrows
  discs : List.Forall₂ (Drawing.Disc.Shows v) v.graph.nodes v.drawing.discs
  /-- The marks of these are what is written, and what is read again. -/
  written : svg = v.drawing.marks.flatMap Drawing.Mark.write
  read : Drawing.readMarks svg = v.drawing.marks
  /-- No title, type or label makes a difference to the tags. -/
  tags : (Drawing.readMarks svg).map (·.tag) =
    (Drawing.readMarks v.drawing.blank.svg.toList).map (·.tag)
  circles : Drawing.occurrences "<circle".toList svg = v.graph.nodeCount
  lines : Drawing.occurrences "<line".toList svg = v.graph.edgeCount
  opened : Drawing.occurrences "<svg".toList svg = 1
  closed : Drawing.occurrences "</svg>".toList svg = 1

theorem forall₂_filterMap {α β : Type} {f : α → Option β} {l : List α}
    (h : ∀ a ∈ l, ∃ b, f a = some b) :
    List.Forall₂ (fun a b => f a = some b) l (l.filterMap f) := by
  induction l with
  | nil => exact .nil
  | cons a l ih =>
    obtain ⟨⟨b, hb⟩, hl⟩ := List.forall_mem_cons.mp h
    rw [List.filterMap_cons_some hb]
    exact .cons hb (ih hl)

theorem lookup_fullStyleTable (k : NodeKind) : fullStyleTable.lookup k = some k.style := by
  cases k <;> rfl

theorem NodeKind.isPlain_color (k : NodeKind) : Drawing.IsPlain k.style.color.toList := by
  cases k <;> decide

namespace Pipeline

variable {p : Pipeline} {request : DiagramRequest} {v : Visualization}

/-- Every node of an answer has a place. -/
theorem exists_place_of_run (h : p.run request = .ok v) {id : NodeId} (hid : id ∈ v.graph.ids) :
    ∃ place, v.positions.lookup id = some place := by
  obtain ⟨seed, tree, hpositions⟩ := positions_of_run h
  refine Option.isSome_iff_exists.mp (lookup_isSome_iff_mem.mpr ?_)
  rw [hpositions, Placement.keys_layout]
  exact hid

/-- An arrow is drawn for every edge of an answer. -/
theorem arrows_of_run (h : p.run request = .ok v) :
    List.Forall₂ (Drawing.Arrow.Joins v) v.graph.edges v.drawing.arrows := by
  refine (forall₂_filterMap fun e he => ?_).imp fun e a ha => ?_
  · obtain ⟨hsource, htarget⟩ := (sound_of_run h).joined e he
    obtain ⟨start, hstart⟩ := exists_place_of_run h hsource
    obtain ⟨tip, htip⟩ := exists_place_of_run h htarget
    exact ⟨_, by rw [Drawing.Arrow.ofEdge?, hstart, htip]; rfl⟩
  · obtain ⟨start, hstart, hrest⟩ := Option.bind_eq_some_iff.mp ha
    obtain ⟨tip, htip, harrow⟩ := Option.bind_eq_some_iff.mp hrest
    exact ⟨start, tip, hstart, htip, (Option.some.inj harrow).symm⟩

theorem shows_of_ofVertex? (h : p.run request = .ok v) {n : Graph.Vertex} {d : Drawing.Disc}
    (hd : Drawing.Disc.ofVertex? v.positions v.styles v.projection n = some d) :
    Drawing.Disc.Shows v n d := by
  obtain ⟨place, hplace, hdisc⟩ := Option.bind_eq_some_iff.mp hd
  rw [(fields_of_run h).2.1, lookup_fullStyleTable] at hdisc
  exact ⟨place, hplace, (Option.some.inj hdisc).symm⟩

/-- A disc is drawn for every node of an answer. -/
theorem discs_of_run (h : p.run request = .ok v) :
    List.Forall₂ (Drawing.Disc.Shows v) v.graph.nodes v.drawing.discs := by
  have hdrawn : List.Forall₂
      (fun n d => Drawing.Disc.ofVertex? v.positions v.styles v.projection n = some d)
      v.graph.nodes v.drawing.discs := by
    refine forall₂_filterMap fun n hn => ?_
    obtain ⟨place, hplace⟩ := exists_place_of_run h (List.mem_map_of_mem hn)
    exact ⟨_, by rw [Drawing.Disc.ofVertex?, hplace]; rfl⟩
  exact hdrawn.imp fun n d hd => shows_of_ofVertex? h hd

/-- The colours of a picture are those of the kinds of nodes. -/
theorem exists_color_of_run (h : p.run request = .ok v) {d : Drawing.Disc}
    (hd : d ∈ v.drawing.discs) : ∃ k : NodeKind, d.color = k.style.color := by
  obtain ⟨n, -, hn⟩ := List.mem_filterMap.mp hd
  obtain ⟨place, -, rfl⟩ := shows_of_ofVertex? h hn
  exact ⟨n.kind, rfl⟩

/-- There are no brackets in the colours of a picture. -/
theorem isPlain_color_of_run (h : p.run request = .ok v) :
    ∀ d ∈ v.drawing.discs, Drawing.IsPlain d.color.toList := by
  intro d hd
  obtain ⟨k, hk⟩ := exists_color_of_run h hd
  rw [hk]
  exact k.isPlain_color

/-- **The picture of an answer shows all of its graph, and nothing else**, whatever its labels,
types and title are. -/
theorem svg_depicts (p : Pipeline) (request : DiagramRequest) {v : Visualization}
    (h : p.run request = .ok v) : Depicts v.drawing.svg.toList v := by
  have harrows := arrows_of_run h
  have hdiscs := discs_of_run h
  have hplain := Drawing.isPlain_marks (isPlain_color_of_run h)
  have hblank : ∀ m ∈ v.drawing.blank.marks, Drawing.IsPlain m.tag :=
    Drawing.isPlain_marks (List.forall_mem_map.mpr (isPlain_color_of_run h))
  obtain ⟨hcircles, hlines, hopened, hclosed⟩ := v.drawing.counts_marks
  rw [v.drawing.svg_eq_write]
  exact {
    arrows := harrows
    discs := hdiscs
    written := rfl
    read := Drawing.readMarks_write hplain
    tags := by
      rw [Drawing.readMarks_write hplain, v.drawing.blank.svg_eq_write,
        Drawing.readMarks_write hblank, Drawing.tags_blank]
    circles := by
      rw [show "<circle".toList = '<' :: "circle".toList from by decide,
        Drawing.occurrences_write hplain (by decide)]
      exact hcircles.trans hdiscs.length_eq.symm
    lines := by
      rw [show "<line".toList = '<' :: "line".toList from by decide,
        Drawing.occurrences_write hplain (by decide)]
      exact hlines.trans harrows.length_eq.symm
    opened := by
      rw [show "<svg".toList = '<' :: "svg".toList from by decide,
        Drawing.occurrences_write hplain (by decide)]
      exact hopened
    closed := by
      rw [show "</svg>".toList = '<' :: ("/svg".toList ++ ['>']) from by decide,
        Drawing.occurrences_write_whole hplain (by decide)]
      exact hclosed }

/-- A text that cannot be read and looks like a tag is told of, and the picture of that has a disc
for it and no other tags. -/
theorem svg_depicts_tag :
    ∃ v, baffled.run ⟨"</svg>", .python, .outline, none, false⟩ = .ok v ∧
      v.graph.nodes.map (·.label) =
        ["Syntax error at line 1: invalid syntax near `</svg>`"] ∧
      Depicts v.drawing.svg.toList v := by
  have hfind : baffled.registry.find .python = .ok Python.frontEnd := rfl
  obtain ⟨v, hv, -⟩ := run_of_find baffled ⟨"</svg>", .python, .outline, none, false⟩ hfind
  have hlabels : (baffled.run ⟨"</svg>", .python, .outline, none, false⟩).toOption.map
      (·.graph.nodes.map (·.label)) =
        some ["Syntax error at line 1: invalid syntax near `</svg>`"] := by
    decide +kernel
  rw [hv] at hlabels
  exact ⟨v, hv, Option.some.inj hlabels, svg_depicts _ _ hv⟩

end Pipeline

end CodeDiagram
