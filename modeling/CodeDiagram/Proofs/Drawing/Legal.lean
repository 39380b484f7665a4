/-
# Legal characters in pictures

A document may not have all characters: of the control characters there are only tabs and breaks.
Entities are written for characters that mean something, but every other character is written as it
is (`forall_escapeChar_iff`).  So the picture of an answer is legal text exactly if the types and
labels of its graph are; and whatever is not legal in it came with the source or with the kinds of
the grammar (`Pipeline.svg_isLegal_iff`).
-/
import CodeDiagram.Proofs.Drawing.Pictures
import CodeDiagram.Proofs.Pipeline.Sources

namespace CodeDiagram

open Syntax
open Text (IsXmlChar Within within_append within_word)

variable {P : Char → Prop}

namespace Drawing

/-! ## 1. What is written -/

theorem isXmlChar_of_isTagChar {c : Char} (h : IsTagChar c) : IsXmlChar c := by
  obtain ⟨hlow, hhigh, -, -⟩ := h
  unfold IsXmlChar
  omega

theorem forall_text_mark {tag text : String} :
    (∀ c ∈ (mark tag text).text, P c) ↔ Within P text := .rfl

section Legal

variable (hP : ∀ c, IsXmlChar c → P c)
include hP

/-- An entity is legal, and so is the character that it is written for; all others are written as
they are. -/
theorem forall_escapeChar_iff (c : Char) : (∀ b ∈ escapeChar c, P b) ↔ P c := by
  have hlegal : ∀ s : String, Within IsXmlChar s → ∀ b ∈ s.toList, P b := fun _ => within_word hP
  unfold escapeChar
  split
  case h_6 => exact List.forall_mem_singleton
  all_goals exact iff_of_true (hlegal _ (by decide)) (hP _ (by decide))

theorem forall_flatMap_escapeChar_iff (cs : List Char) :
    (∀ c ∈ cs.flatMap escapeChar, P c) ↔ ∀ c ∈ cs, P c := by
  rw [List.forall_mem_flatMap]
  exact forall₂_congr fun c _ => forall_escapeChar_iff hP c

/-- What is written of a mark is of a class if its text is, and its tag. -/
theorem forall_write_iff {m : Mark} (htag : ∀ c ∈ m.tag, P c) :
    (∀ c ∈ m.write, P c) ↔ ∀ c ∈ m.text, P c := by
  have hopen : P '<' := hP _ (by decide)
  have hclose : P '>' := hP _ (by decide)
  rw [Mark.write, Mark.part, List.forall_mem_cons, List.forall_mem_append, List.forall_mem_cons,
    forall_flatMap_escapeChar_iff hP]
  simp only [hopen, hclose, true_and]
  exact and_iff_right htag

theorem forall_text_header_iff (title : String) :
    (∀ m ∈ headerMarks title, ∀ c ∈ m.text, P c) ↔ Within P title := by
  have hempty : Within P "" := within_word hP (by decide)
  have hbreak : Within P "\n" := within_word hP (by decide)
  simp only [headerMarks, svgMark, tipMarks, backgroundMark, titleMarks, List.cons_append,
    List.nil_append, List.forall_mem_cons, forall_text_mark, hempty, hbreak, true_and,
    List.not_mem_nil, false_implies, implies_true, and_true]

theorem forall_text_disc_iff (d : Disc) :
    (∀ m ∈ d.marks, ∀ c ∈ m.text, P c) ↔ Within P d.type ∧ Within P d.label := by
  have hempty : Within P "" := within_word hP (by decide)
  have hbreak : Within P "\n" := within_word hP (by decide)
  have hopen : Within P " (line " := within_word hP (by decide)
  have hclose : Within P ")" := within_word hP (by decide)
  have hline : Within P (d.line.elim "-" toString) := by
    cases d.line with
    | none => exact within_word hP (by decide)
    | some n => exact within_word hP (Text.isXmlChar_toString n)
  simp only [Disc.marks, List.forall_mem_cons, forall_text_mark, within_append, hempty, hbreak,
    hopen, hclose, hline, true_and, List.not_mem_nil, false_implies, implies_true, and_true]

/-- **A document is of a class** if its title is, and the types and labels of its discs. -/
theorem within_svg_iff {d : Drawing} (hcolor : ∀ disc ∈ d.discs, Within P disc.color) :
    Within P d.svg ↔ Within P d.title ∧
      ∀ disc ∈ d.discs, Within P disc.type ∧ Within P disc.label := by
  have hbreak : Within P "\n" := within_word hP (by decide)
  have htag := tag_marks (fun c hc => hP c (isXmlChar_of_isTagChar hc)) hcolor
  have htexts : Within P d.svg ↔ ∀ m ∈ d.marks, ∀ c ∈ m.text, P c := by
    unfold Text.Within
    rw [svg_eq_write, List.forall_mem_flatMap]
    exact forall₂_congr fun m hm => forall_write_iff hP (htag m hm)
  have harrows : ∀ m ∈ d.arrows.map (·.mark), ∀ c ∈ m.text, P c :=
    List.forall_mem_map.mpr fun a _ => hbreak
  have hlast : ∀ m ∈ [mark "/svg" "\n"], ∀ c ∈ m.text, P c :=
    List.forall_mem_singleton.mpr hbreak
  rw [htexts, marks, List.forall_mem_append, List.forall_mem_append, List.forall_mem_append,
    forall_text_header_iff hP, List.forall_mem_flatMap, and_iff_left hlast, and_iff_left harrows]
  exact and_congr_right fun _ => forall₂_congr fun disc _ => forall_text_disc_iff hP disc

end Legal

end Drawing

namespace Pipeline

variable {p : Pipeline} {request : DiagramRequest} {v : Visualization}

/-! ## 2. Pictures of answers -/

theorem isXmlChar_title (k : DiagramKind) : Within IsXmlChar k.title := by
  cases k <;> decide +kernel

theorem isXmlChar_color (k : NodeKind) : Within IsXmlChar k.style.color := by
  cases k <;> decide

/-- The types and labels of the discs are those of the nodes, in order. -/
theorem texts_of_run (h : p.run request = .ok v) :
    v.graph.nodes.map (fun n => (n.type, n.label)) =
      v.drawing.discs.map fun d => (d.type, d.label) := by
  rw [← List.forall₂_eq_eq_eq, List.forall₂_map_left_iff, List.forall₂_map_right_iff]
  refine (discs_of_run h).imp fun n d hd => ?_
  obtain ⟨place, -, rfl⟩ := hd
  rfl

/-- The picture of an answer is of a class exactly if the types and labels of its graph are. -/
theorem within_svg_of_run_iff (hP : ∀ c, IsXmlChar c → P c) (h : p.run request = .ok v) :
    Within P v.drawing.svg ↔ v.graph.Within P := by
  have hcolor : ∀ d ∈ v.drawing.discs, Within P d.color := by
    intro d hd
    obtain ⟨k, hk⟩ := exists_color_of_run h hd
    rw [hk]
    exact within_word hP (isXmlChar_color k)
  have htitle : Within P v.drawing.title := by
    have hname : v.drawing.title = request.diagram.title := (fields_of_run h).2.2
    rw [hname]
    exact within_word hP (isXmlChar_title request.diagram)
  have hdiscs : (∀ d ∈ v.drawing.discs, Within P d.type ∧ Within P d.label) ↔
      ∀ t ∈ v.drawing.discs.map fun d => (d.type, d.label), Within P t.1 ∧ Within P t.2 := by
    simp only [List.forall_mem_map]
  rw [Drawing.within_svg_iff hP hcolor, and_iff_right htitle, hdiscs, ← texts_of_run h]
  simp only [List.forall_mem_map, Graph.Within]

/-- **A picture is legal text** exactly if the types and labels of its graph are.  A character of it
that is not legal is one of the source, or of a kind of the grammar. -/
theorem svg_isLegal_iff (p : Pipeline) (request : DiagramRequest) {v : Visualization}
    (h : p.run request = .ok v) :
    (Within IsXmlChar v.drawing.svg ↔ v.graph.Within IsXmlChar) ∧
      (p.registry.find request.language = .ok request.language.frontEnd →
        ∀ c ∈ v.drawing.svg.toList, IsXmlChar c ∨ c ∈ request.source.toList ∨
          ∃ text, ∃ t ∈ (p.grammar request.language text).nodes, c ∈ t.info.kind.toList) := by
  refine ⟨within_svg_of_run_iff (fun _ hc => hc) h, fun hfind => ?_⟩
  have hP : ∀ c, IsXmlChar c → IsXmlChar c ∨ c ∈ request.source.toList ∨
      ∃ text, ∃ t ∈ (p.grammar request.language text).nodes, c ∈ t.info.kind.toList :=
    fun _ => Or.inl
  refine (within_svg_of_run_iff hP h).mpr (within_run hP hfind ?_ ?_ h)
  · exact fun text t ht c hc => Or.inr (Or.inr ⟨text, t, ht, hc⟩)
  · exact fun c hc => Or.inr (Or.inl hc)

/-- A form feed is not legal, but it is a blank, and what is quoted of an error is stripped of
blanks: the picture is legal. -/
theorem svg_isLegal_iff_formFeed :
    ¬ Within IsXmlChar "\x0Cx = (" ∧
      ∃ v, baffled.run ⟨"\x0Cx = (", .python, .outline, none, false⟩ = .ok v ∧
        Within IsXmlChar v.drawing.svg := by
  have hfind : baffled.registry.find .python = .ok Python.frontEnd := rfl
  obtain ⟨v, hv, -⟩ :=
    run_of_find baffled ⟨"\x0Cx = (", .python, .outline, none, false⟩ hfind
  have hnodes : (baffled.run ⟨"\x0Cx = (", .python, .outline, none, false⟩).toOption.map
      (·.graph.nodes) = some [⟨0, "parse_error", .message,
        "Syntax error at line 1: invalid syntax near `x = (`", none⟩] := by
    decide +kernel
  rw [hv] at hnodes
  have hgraph : v.graph.nodes = _ := Option.some.inj hnodes
  have hlegal : v.graph.Within IsXmlChar := by
    rw [Graph.Within, hgraph]
    decide +kernel
  exact ⟨by decide, v, hv, (svg_isLegal_iff _ _ hv).1.mpr hlegal⟩

/-- A text of one character that no document may have. -/
def nullText : Document where
  language := .python
  text := "\x00"
  tree := (Tree.ofRecords? [⟨0, "module", 8, 0, 1, none⟩, ⟨1, "ERROR", 12, 0, 1, none⟩,
    ⟨2, "ERROR", 4, 0, 1, none⟩]).getD default

/-- It is quoted as it is, so the picture of the error is no legal text. -/
theorem svg_not_isLegal :
    ∃ v, (knowing nullText).run ⟨nullText.text, .python, .outline, none, false⟩ = .ok v ∧
      ¬ Within IsXmlChar v.drawing.svg := by
  have hfind : (knowing nullText).registry.find .python = .ok Python.frontEnd := rfl
  obtain ⟨v, hv, -⟩ :=
    run_of_find (knowing nullText) ⟨nullText.text, .python, .outline, none, false⟩ hfind
  have hnodes : ((knowing nullText).run
      ⟨nullText.text, .python, .outline, none, false⟩).toOption.map (·.graph.nodes) =
        some [⟨0, "parse_error", .message,
          "Syntax error at line 1: invalid syntax near `\x00`", none⟩] := by
    decide +kernel
  rw [hv] at hnodes
  have hgraph : v.graph.nodes = _ := Option.some.inj hnodes
  refine ⟨v, hv, fun hlegal => ?_⟩
  have hwithin := (within_svg_of_run_iff (fun _ hc => hc) hv).mp hlegal
  rw [Graph.Within, hgraph] at hwithin
  exact absurd hwithin (by decide +kernel)

end Pipeline

end CodeDiagram
