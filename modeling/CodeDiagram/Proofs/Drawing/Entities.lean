/-
# Entities

Five characters mean something in a document, and entities are written for them.  What is written
can be told by its looks (`IsCoded`): none of the five is left, but for the ampersand that each
entity starts with.  Every text of that kind is what is written for one text and for no other, and
that is the text which is read from it (`escape_isInvertible`).

The reason is that an entity has no ampersand behind its first character, so a place where one may
start lies at the start of what is written for a character, never inside it
(`suffix_of_suffix_append`).  In a picture the same holds of every label: the labels of the graph
are read from the document (`shownLabels_svg`).
-/
import CodeDiagram.Proofs.Drawing.Legal

namespace CodeDiagram.Drawing

/-! ## 1. Texts with entities -/

/-- The characters that entities are written for. -/
def reserved : List Char := ['&', '<', '>', '"', '\'']

/-- The entities. -/
def entities : List String := ["&amp;", "&lt;", "&gt;", "&quot;", "&apos;"]

/-- There is nothing to be read in a text but entities and characters without a meaning. -/
structure IsCoded (t : List Char) : Prop where
  unreserved : ∀ c ∈ t, c ∈ reserved → c = '&'
  starts : ∀ rest, '&' :: rest <:+ t → ∃ e ∈ entities, e.toList <+: '&' :: rest

/-- What starts with a character is not found inside a text without the character. -/
theorem suffix_of_suffix_append {a : Char} {body t rest : List Char} (h : a ∉ body)
    (hs : a :: rest <:+ body ++ t) : a :: rest <:+ t := by
  induction body with
  | nil => exact hs
  | cons b body ih =>
    obtain ⟨hb, hbody⟩ := List.ne_and_not_mem_of_not_mem_cons h
    rw [List.cons_append, List.suffix_cons_iff] at hs
    rcases hs with heq | hs
    · exact absurd (List.cons.inj heq).1 hb
    · exact ih hbody hs

/-- An entity has one ampersand, its first character, and no other character with a meaning. -/
theorem exists_eq_of_mem_entities {e : String} (h : e ∈ entities) :
    ∃ name, e.toList = '&' :: name ∧ ∀ c ∈ name, c ∉ reserved := by
  have hall : ∀ e ∈ entities, e.toList = '&' :: e.toList.tail ∧
      e.toList.tail.all (· ∉ reserved) = true := by decide
  obtain ⟨hstart, hname⟩ := hall e h
  exact ⟨e.toList.tail, hstart, fun c hc => of_decide_eq_true (List.all_eq_true.mp hname c hc)⟩

namespace IsCoded

theorem nil : IsCoded [] :=
  ⟨fun _ hc => absurd hc List.not_mem_nil, fun _ h => absurd h (by simp)⟩

theorem of_append {s t : List Char} (h : IsCoded (s ++ t)) : IsCoded t where
  unreserved c hc := h.unreserved c (List.mem_append_right s hc)
  starts rest hs := h.starts rest (hs.trans (List.suffix_append s t))

theorem cons {c : Char} {t : List Char} (hc : c ∉ reserved) (h : IsCoded t) : IsCoded (c :: t) where
  unreserved b hb hmem := by
    rcases List.mem_cons.mp hb with rfl | hb
    · exact absurd hmem hc
    · exact h.unreserved b hb hmem
  starts rest hs := by
    have hne : '&' ∉ [c] := by
      intro hmem
      rw [← List.mem_singleton.mp hmem] at hc
      exact hc (by decide)
    exact h.starts rest (suffix_of_suffix_append hne hs)

theorem entity {e : String} {t : List Char} (he : e ∈ entities) (h : IsCoded t) :
    IsCoded (e.toList ++ t) := by
  obtain ⟨name, hname, hunreserved⟩ := exists_eq_of_mem_entities he
  have hamp : '&' ∉ name := fun hmem => hunreserved _ hmem (by decide)
  rw [hname]
  constructor
  · intro c hc hmem
    rcases List.mem_cons.mp hc with hc | hc
    · exact hc
    · rcases List.mem_append.mp hc with hc | hc
      · exact absurd hmem (hunreserved c hc)
      · exact h.unreserved c hc hmem
  · intro rest hs
    rw [List.cons_append, List.suffix_cons_iff] at hs
    rcases hs with heq | hs
    · -- the ampersand of the entity itself
      rw [heq]
      exact ⟨e, he, t, by rw [hname, List.cons_append]⟩
    · exact h.starts rest (suffix_of_suffix_append hamp hs)

end IsCoded

/-! ## 2. Writing -/

/-- A character without a meaning is written as it is. -/
theorem escapeChar_of_notMem {c : Char} (h : c ∉ reserved) : escapeChar c = [c] := by
  unfold escapeChar
  split
  case h_6 => rfl
  all_goals exact absurd h (by decide)

/-- An entity is written for a character with a meaning. -/
theorem exists_escapeChar_of_mem {c : Char} (h : c ∈ reserved) :
    ∃ e ∈ entities, escapeChar c = e.toList := by
  simp only [reserved, List.mem_cons, List.not_mem_nil, or_false] at h
  rcases h with rfl | rfl | rfl | rfl | rfl <;> decide

theorem isCoded_escapeChar_append {c : Char} {t : List Char} (h : IsCoded t) :
    IsCoded (escapeChar c ++ t) := by
  by_cases hc : c ∈ reserved
  · obtain ⟨e, he, heq⟩ := exists_escapeChar_of_mem hc
    rw [heq]
    exact h.entity he
  · rw [escapeChar_of_notMem hc]
    exact h.cons hc

/-- What is written has nothing to be read but entities. -/
theorem isCoded_flatMap_escapeChar (cs : List Char) : IsCoded (cs.flatMap escapeChar) := by
  induction cs with
  | nil => exact .nil
  | cons c cs ih =>
    rw [List.flatMap_cons]
    exact isCoded_escapeChar_append ih

/-- **What is read is written again as it was**, if there is nothing to be read but entities. -/
theorem flatMap_escapeChar_unescape {t : List Char} (h : IsCoded t) :
    (unescape t).flatMap escapeChar = t := by
  have hentity : ∀ {c : Char} {cs : List Char},
      (IsCoded cs → (unescape cs).flatMap escapeChar = cs) → IsCoded (escapeChar c ++ cs) →
        (c :: unescape cs).flatMap escapeChar = escapeChar c ++ cs := by
    intro c cs ih hc
    rw [List.flatMap_cons, ih hc.of_append]
  induction t using unescape.induct with
  | case1 cs ih => exact hentity (c := '&') ih h
  | case2 cs ih => exact hentity (c := '<') ih h
  | case3 cs ih => exact hentity (c := '>') ih h
  | case4 cs ih => exact hentity (c := '"') ih h
  | case5 cs ih => exact hentity (c := '\'') ih h
  | case6 c cs hamp hlt hgt hquot hapos ih =>
    -- an ampersand would start one of the entities, which are the cases before
    have hne : c ≠ '&' := by
      rintro rfl
      obtain ⟨e, he, rest, hrest⟩ := h.starts cs (List.suffix_refl _)
      simp only [entities, List.mem_cons, List.not_mem_nil, or_false] at he
      rcases he with rfl | rfl | rfl | rfl | rfl
      · exact hamp rest rfl (List.cons.inj hrest).2.symm
      · exact hlt rest rfl (List.cons.inj hrest).2.symm
      · exact hgt rest rfl (List.cons.inj hrest).2.symm
      · exact hquot rest rfl (List.cons.inj hrest).2.symm
      · exact hapos rest rfl (List.cons.inj hrest).2.symm
    have hplain : c ∉ reserved := fun hc => hne (h.unreserved c List.mem_cons_self hc)
    rw [unescape_cons hne, List.flatMap_cons, escapeChar_of_notMem hplain]
    exact congrArg (c :: ·) (ih (IsCoded.of_append (s := [c]) h))
  | case7 => rfl

/-- **The texts that are written** are those with nothing to be read but entities. -/
theorem isCoded_iff_exists_escape (t : String) : IsCoded t.toList ↔ ∃ s, escape s = t := by
  constructor
  · intro h
    refine ⟨String.ofList (unescape t.toList), ?_⟩
    rw [escape, String.toList_ofList, flatMap_escapeChar_unescape h, String.ofList_toList]
  · rintro ⟨s, rfl⟩
    rw [escape, String.toList_ofList]
    exact isCoded_flatMap_escapeChar s.toList

theorem unescape_escape (s : String) : unescape (escape s).toList = s.toList := by
  rw [escape, String.toList_ofList, unescape_flatMap_escapeChar]

/-! ## 3. Labels in a picture -/

/-- The labels that a document shows: the texts of its text elements behind the title. -/
def shownLabels (svg : List Char) : List (List Char) :=
  ((readMarks svg).filter (Mark.begins "text ")).tail.map (·.text)

theorem filter_header (title : String) :
    ∃ m, (headerMarks title).filter (Mark.begins "text ") = [m] := by
  unfold headerMarks svgMark tipMarks backgroundMark titleMarks
  simp only [mark, String.toList_append, List.append_assoc]
  exact ⟨_, rfl⟩

theorem filter_arrow (a : Arrow) : Mark.begins "text " a.mark = false := by
  unfold Arrow.mark
  simp only [mark, String.toList_append, List.append_assoc]
  rfl

theorem filter_disc (d : Disc) :
    (d.marks.filter (Mark.begins "text ")).map (·.text) = [d.label.toList] := by
  unfold Disc.marks
  simp only [mark, String.toList_append, List.append_assoc]
  rfl

/-- **The labels of a drawing are read from its document**, whatever they are. -/
theorem shownLabels_svg {d : Drawing} (h : ∀ disc ∈ d.discs, IsPlain disc.color.toList) :
    shownLabels d.svg.toList = d.discs.map (·.label.toList) := by
  obtain ⟨title, htitle⟩ := filter_header d.title
  have harrows : (d.arrows.map (·.mark)).filter (Mark.begins "text ") = [] := by
    rw [List.filter_eq_nil_iff]
    intro m hm
    obtain ⟨a, -, rfl⟩ := List.mem_map.mp hm
    simp [filter_arrow a]
  have hdiscs : ((d.discs.flatMap (·.marks)).filter (Mark.begins "text ")).map (·.text) =
      d.discs.map (·.label.toList) := by
    rw [List.filter_flatMap, List.map_flatMap]
    simp only [filter_disc]
    exact List.map_eq_flatMap.symm
  have hlast : [mark "/svg" "\n"].filter (Mark.begins "text ") = [] := by decide
  rw [shownLabels, svg_eq_write, readMarks_write (isPlain_marks h), marks, List.filter_append,
    List.filter_append, List.filter_append, htitle, harrows, hlast, List.append_nil,
    List.append_nil, List.singleton_append, List.tail_cons, hdiscs]

/-! ## 4. Pictures of answers -/

/-- **What is written with entities can be read**: the texts that are written are those with
nothing to be read but entities, reading gives back what was written, and so it is with all labels
in the picture of an answer. -/
theorem escape_isInvertible :
    (∀ t : String, IsCoded t.toList ↔ ∃ s, escape s = t) ∧
      (∀ s, unescape (escape s).toList = s.toList) ∧ Function.Injective escape ∧
      (∀ s t, escape (s ++ t) = escape s ++ escape t) ∧
      ∀ (p : Pipeline) (request : DiagramRequest) (v : Visualization), p.run request = .ok v →
        shownLabels v.drawing.svg.toList = v.graph.nodes.map (·.label.toList) := by
  refine ⟨isCoded_iff_exists_escape, unescape_escape, ?_, escape_append, ?_⟩
  · intro s t hst
    rw [← String.toList_inj, ← unescape_escape s, hst, unescape_escape]
  · intro p request v hv
    have hlabels := congrArg (List.map (·.2.toList)) (Pipeline.texts_of_run hv)
    rw [List.map_map, List.map_map] at hlabels
    rw [shownLabels_svg (Pipeline.isPlain_color_of_run hv)]
    exact hlabels.symm

end CodeDiagram.Drawing
