/-
# Tags and the texts behind them

A document is a row of tags, each with the text behind it up to the next one (`Mark`).  Texts are
written with entities for the characters that mean something, so whatever they are made of, a
reader of the document finds the tags and the texts that were written and no others
(`readMarks_write`).  A search for what an opening bracket starts finds tags only: as many as begin
like that (`occurrences_write`), or as many as are that tag (`occurrences_write_whole`).
-/
import CodeDiagram.Drawing.Escape
import Mathlib.Data.List.Infix

namespace CodeDiagram.Drawing

/-! ## 1. Entities -/

/-- The text that was written with entities. -/
def unescape : List Char → List Char
  | '&' :: 'a' :: 'm' :: 'p' :: ';' :: cs => '&' :: unescape cs
  | '&' :: 'l' :: 't' :: ';' :: cs => '<' :: unescape cs
  | '&' :: 'g' :: 't' :: ';' :: cs => '>' :: unescape cs
  | '&' :: 'q' :: 'u' :: 'o' :: 't' :: ';' :: cs => '"' :: unescape cs
  | '&' :: 'a' :: 'p' :: 'o' :: 's' :: ';' :: cs => '\'' :: unescape cs
  | c :: cs => c :: unescape cs
  | [] => []

theorem unescape_cons {c : Char} (h : c ≠ '&') (cs : List Char) :
    unescape (c :: cs) = c :: unescape cs := by
  conv_lhs => unfold unescape
  split <;> simp_all

theorem unescape_escapeChar_append (c : Char) (cs : List Char) :
    unescape (escapeChar c ++ cs) = c :: unescape cs := by
  unfold escapeChar
  split
  case h_6 hamp _ _ _ _ => exact unescape_cons hamp cs
  all_goals rfl

/-- **Entities are read as the characters that they were written for.** -/
theorem unescape_flatMap_escapeChar (cs : List Char) : unescape (cs.flatMap escapeChar) = cs := by
  induction cs with
  | nil => rfl
  | cons c cs ih => rw [List.flatMap_cons, unescape_escapeChar_append, ih]

/-- No opening bracket is left in a text that is written with entities. -/
theorem bracket_notMem_flatMap_escapeChar (cs : List Char) : '<' ∉ cs.flatMap escapeChar := by
  intro hmem
  obtain ⟨c, -, hc⟩ := List.mem_flatMap.mp hmem
  unfold escapeChar at hc
  split at hc
  case h_6 hbracket _ _ _ => exact hbracket (List.mem_singleton.mp hc).symm
  all_goals exact absurd hc (by decide)

/-! ## 2. Marks -/

/-- There are no brackets in a text. -/
def IsPlain (cs : List Char) : Prop := '<' ∉ cs ∧ '>' ∉ cs

instance (cs : List Char) : Decidable (IsPlain cs) := inferInstanceAs (Decidable (_ ∧ _))

/-- A tag, without its brackets, and the text behind it. -/
structure Mark where
  tag : List Char
  text : List Char
deriving DecidableEq

namespace Mark

/-- What is written behind the opening bracket of a mark. -/
def part (m : Mark) : List Char := m.tag ++ '>' :: m.text.flatMap escapeChar

/-- What is written of a mark. -/
def write (m : Mark) : List Char := '<' :: m.part

/-- The mark that is read behind an opening bracket. -/
def read (part : List Char) : Mark :=
  ⟨part.takeWhile (· != '>'), unescape (part.dropWhile (· != '>')).tail⟩

/-- A tag ends at the first closing bracket. -/
theorem span_tag {tag : List Char} (h : '>' ∉ tag) (rest : List Char) :
    (tag ++ '>' :: rest).takeWhile (· != '>') = tag ∧
      (tag ++ '>' :: rest).dropWhile (· != '>') = '>' :: rest := by
  have hall : ∀ c ∈ tag, (c != '>') = true := by
    intro c hc
    rw [bne_iff_ne]
    rintro rfl
    exact h hc
  rw [List.takeWhile_append_of_pos hall, List.dropWhile_append_of_pos hall]
  simp

theorem read_part {m : Mark} (h : IsPlain m.tag) : read m.part = m := by
  obtain ⟨htake, hdrop⟩ := span_tag h.2 (m.text.flatMap escapeChar)
  rw [read, part, htake, hdrop, List.tail_cons, unescape_flatMap_escapeChar]

theorem bracket_notMem_part {m : Mark} (h : IsPlain m.tag) : '<' ∉ m.part := by
  rw [part, List.mem_append, List.mem_cons]
  rintro (hmem | hmem | hmem)
  · exact h.1 hmem
  · cases hmem
  · exact bracket_notMem_flatMap_escapeChar _ hmem

end Mark

/-- The marks of a document. -/
def readMarks (cs : List Char) : List Mark := (cs.splitOn '<').tail.map Mark.read

/-- Parts behind brackets are parts with brackets between them, the first of which is empty. -/
theorem intercalate_eq_flatMap (part : List Char) (parts : List (List Char)) :
    ['<'].intercalate (part :: parts) = part ++ parts.flatMap ('<' :: ·) := by
  induction parts generalizing part with
  | nil => rw [List.intercalate_singleton, List.flatMap_nil, List.append_nil]
  | cons next parts ih =>
    rw [List.intercalate_cons_cons, ih, List.flatMap_cons, List.append_assoc]
    rfl

/-- **Marks that are written are read**, and no others, whatever their texts are. -/
theorem readMarks_write {ms : List Mark} (h : ∀ m ∈ ms, IsPlain m.tag) :
    readMarks (ms.flatMap Mark.write) = ms := by
  have hwritten : ms.flatMap Mark.write = ['<'].intercalate ([] :: ms.map Mark.part) := by
    rw [intercalate_eq_flatMap, List.nil_append, List.flatMap_map]
    rfl
  have hparts : ∀ part ∈ [] :: ms.map Mark.part, '<' ∉ part := by
    refine List.forall_mem_cons.mpr ⟨List.not_mem_nil, List.forall_mem_map.mpr fun m hm => ?_⟩
    exact Mark.bracket_notMem_part (h m hm)
  rw [readMarks, hwritten, List.splitOn_intercalate '<' hparts (by simp), List.tail_cons,
    List.map_map]
  exact (List.map_congr_left fun m hm => Mark.read_part (h m hm)).trans ms.map_id

/-! ## 3. Searching -/

/-- How often a text has a part. -/
def occurrences (part cs : List Char) : Nat := cs.tails.countP (part.isPrefixOf ·)

theorem occurrences_cons (part : List Char) (c : Char) (cs : List Char) :
    occurrences part (c :: cs) =
      occurrences part cs + if part.isPrefixOf (c :: cs) then 1 else 0 := by
  rw [occurrences, List.tails_cons, List.countP_cons, occurrences]

/-- What a text without the first character of a part is put in front of does not matter. -/
theorem occurrences_append_of_notMem {first : Char} {body : List Char} (h : first ∉ body)
    (name cs : List Char) :
    occurrences (first :: name) (body ++ cs) = occurrences (first :: name) cs := by
  induction body with
  | nil => rfl
  | cons b body ih =>
    have hne : (first == b) = false := by
      rw [beq_eq_false_iff_ne]
      exact fun he => h (he ▸ List.mem_cons_self)
    rw [List.cons_append, occurrences_cons, ih (List.not_mem_of_not_mem_cons h),
      List.isPrefixOf_cons_cons, hne]
    rfl

/-- What begins with a character that a part does not have does not matter behind a text. -/
theorem isPrefixOf_append_of_notMem {name rest : List Char} (h : ∀ c ∈ rest.head?, c ∉ name)
    (body : List Char) : name.isPrefixOf (body ++ rest) = name.isPrefixOf body := by
  induction name generalizing body with
  | nil => simp
  | cons n name ih =>
    cases body with
    | nil =>
      cases rest with
      | nil => rfl
      | cons r rest =>
        have hne : (n == r) = false := by
          rw [beq_eq_false_iff_ne]
          exact fun he => h r rfl (he ▸ List.mem_cons_self)
        rw [List.nil_append, List.isPrefixOf_cons_cons, hne]
        rfl
    | cons b body =>
      rw [List.cons_append, List.isPrefixOf_cons_cons, List.isPrefixOf_cons_cons,
        ih (fun c hc => List.not_mem_of_not_mem_cons (h c hc))]

/-- What an opening bracket starts is found behind the brackets of marks only. -/
theorem occurrences_write_part {ms : List Mark} (h : ∀ m ∈ ms, IsPlain m.tag) {name : List Char}
    (hname : '<' ∉ name) :
    occurrences ('<' :: name) (ms.flatMap Mark.write) = ms.countP (name.isPrefixOf ·.part) := by
  induction ms with
  | nil => rfl
  | cons m ms ih =>
    obtain ⟨hm, hms⟩ := List.forall_mem_cons.mp h
    have hhead : ∀ c ∈ (ms.flatMap Mark.write).head?, c ∉ name := by
      cases ms with
      | nil => simp
      | cons next ms =>
        rintro c hc
        obtain rfl := Option.some.inj hc
        exact hname
    rw [List.flatMap_cons, Mark.write, List.cons_append, occurrences_cons,
      occurrences_append_of_notMem (Mark.bracket_notMem_part hm), ih hms, List.countP_cons,
      List.isPrefixOf_cons_cons, isPrefixOf_append_of_notMem hhead, beq_self_eq_true, Bool.true_and]

/-- **As many tags begin with a name as are found** with a bracket in front of it. -/
theorem occurrences_write {ms : List Mark} (h : ∀ m ∈ ms, IsPlain m.tag) {name : List Char}
    (hname : IsPlain name) :
    occurrences ('<' :: name) (ms.flatMap Mark.write) = ms.countP (name.isPrefixOf ·.tag) := by
  rw [occurrences_write_part h hname.1]
  refine List.countP_congr fun m hm => ?_
  rw [Mark.part, isPrefixOf_append_of_notMem fun c hc => ?_]
  exact Option.some.inj hc ▸ hname.2

/-- **As many marks have a tag as are found** with brackets around it. -/
theorem occurrences_write_whole {ms : List Mark} (h : ∀ m ∈ ms, IsPlain m.tag) {tag : List Char}
    (htag : IsPlain tag) :
    occurrences ('<' :: (tag ++ ['>'])) (ms.flatMap Mark.write) = ms.countP (·.tag == tag) := by
  have hname : '<' ∉ tag ++ ['>'] := by simpa using htag.1
  rw [occurrences_write_part h hname]
  refine List.countP_congr fun m hm => ?_
  rw [List.isPrefixOf_iff_prefix, beq_iff_eq]
  constructor
  · rintro ⟨rest, hrest⟩
    rw [List.append_assoc, Mark.part] at hrest
    have htake := congrArg (List.takeWhile (· != '>')) hrest
    rw [(Mark.span_tag (h m hm).2 _).1] at htake
    exact (htake.symm.trans (Mark.span_tag htag.2 rest).1)
  · rintro rfl
    exact ⟨m.text.flatMap escapeChar, by rw [List.append_assoc]; rfl⟩

end CodeDiagram.Drawing
