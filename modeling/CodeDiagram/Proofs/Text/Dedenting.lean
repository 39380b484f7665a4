/-
# Texts moved left

A text is moved left by the least indentation of its rows that are not blank.  It is measured on
lines and cut from pieces, by bytes, and yet each cut is inside its piece and between characters
(`dedentInBytes?_eq_some`): what is cut is spaces and tabs, of one byte each, and no piece that is
cut has fewer of them.  So all rows are kept, a blank one is emptied and each other one loses
exactly that many characters (`dedent_isDedented`).

How far rows are indented is compared, and not with which characters.  What is taken off is the
indentation that all rows share exactly if they all start with the same characters
(`exists_takesShared_iff`); a row behind tabs and one behind as many spaces lose both, and stand in
one column afterwards (`mixed_indentation_stripped`).
-/
import CodeDiagram.Proofs.FrontEnd.Places
import CodeDiagram.Syntax.Recorded
import Mathlib.Data.List.Forall2

namespace CodeDiagram.Text

/-! ## 1. Ranges -/

/-- The place of a byte is the one that stands there, if one does. -/
theorem pos?_eq_some_iff {s : String} {k : Nat} {p : s.Pos} :
    s.pos? ⟨k⟩ = some p ↔ p.offset.byteIdx = k := by
  unfold String.pos? String.Slice.pos?
  constructor
  · intro h
    obtain ⟨q, hq, rfl⟩ := Option.map_eq_some_iff.mp h
    split at hq
    · rw [← Option.some.inj hq]
      rfl
    · cases hq
  · rintro rfl
    have hvalid : String.Pos.Raw.isValidForSlice s.toSlice ⟨p.offset.byteIdx⟩ = true := by
      simpa using p.isValid
    rw [dif_pos hvalid]
    exact congrArg some (String.Pos.ext rfl)

theorem byteIdx_of_splits {s a b : String} {p : s.Pos} (h : p.Splits a b) :
    p.offset.byteIdx = a.utf8ByteSize := by
  rw [h.offset_eq_rawEndPos]
  rfl

/-- **A range gives text** exactly if it ends where a text ends that it starts in, both between
characters. -/
theorem slice_eq_some_iff {s t : String} {start stop : Nat} :
    slice s start stop = some t ↔
      ∃ a c, s = a ++ t ++ c ∧ a.utf8ByteSize = start ∧ (a ++ t).utf8ByteSize = stop := by
  unfold slice
  constructor
  · intro h
    split at h
    · rename_i hle
      split at h
      · rename_i p q hp hq
        rw [pos?_eq_some_iff] at hp hq
        subst hp hq
        have hpq : p ≤ q := String.Pos.le_iff.mpr hle
        rw [String.extract_eq_copy_slice p q hpq] at h
        obtain ⟨a, c, hstart, hstop⟩ :=
          String.copy_slice_eq_iff_splits.mp ⟨hpq, Option.some.inj h⟩
        exact ⟨a, c, hstop.eq_append, (byteIdx_of_splits hstart).symm,
          (byteIdx_of_splits hstop).symm⟩
      · cases h
    · cases h
  · rintro ⟨a, c, hs, rfl, rfl⟩
    have hstart := String.Pos.splits_ofEqAppend (hs.trans (String.append_assoc ..))
    have hstop := String.Pos.splits_ofEqAppend hs
    obtain ⟨hpq, hcopy⟩ := String.copy_slice_eq_iff_splits.mpr ⟨a, c, hstart, hstop⟩
    have hle : a.utf8ByteSize ≤ (a ++ t).utf8ByteSize := by
      rw [String.utf8ByteSize_append]
      exact Nat.le_add_right _ _
    rw [if_pos hle, pos?_eq_some_iff.mpr (byteIdx_of_splits hstart),
      pos?_eq_some_iff.mpr (byteIdx_of_splits hstop)]
    dsimp only
    rw [String.extract_eq_copy_slice _ _ hpq, hcopy]

example : slice "éx" 1 3 = none ∧ slice "éx" 2 3 = some "x" := by decide +kernel

/-! ## 2. Rows behind indentation -/

theorem isBlank_of_isIndent {c : Char} (h : isIndent c = true) : isBlank c = true := by
  have hc : c = ' ' ∨ c = '\t' := by simpa [isIndent] using h
  rcases hc with rfl | rfl <;> rfl

section Cut

variable {cut row : List Char}

theorem isBlankText_append (h : ∀ c ∈ cut, isIndent c = true) :
    isBlankText (cut ++ row) = isBlankText row := by
  have hcut : cut.all isBlank = true :=
    List.all_eq_true.mpr fun c hc => isBlank_of_isIndent (h c hc)
  rw [isBlankText, List.all_append, hcut, Bool.true_and, isBlankText]

theorem indentation_append (h : ∀ c ∈ cut, isIndent c = true) :
    indentation (cut ++ row) = cut.length + indentation row := by
  rw [indentation, List.takeWhile_append_of_pos h, List.length_append, indentation]

/-- What a row starts with is in its indentation if it is spaces and tabs. -/
theorem length_le_indentation (h : ∀ c ∈ cut, isIndent c = true) (hstart : cut <+: row) :
    cut.length ≤ indentation row := by
  obtain ⟨left, rfl⟩ := hstart
  rw [indentation_append h]
  exact Nat.le_add_right _ _

end Cut

/-- How a row is moved left by `n` columns: a blank one is emptied, and another loses `n` spaces
and tabs. -/
inductive MovesLeft (n : Nat) : List Char → List Char → Prop where
  | blank {row : List Char} (blank : isBlankText row = true) : MovesLeft n row []
  | inked {cut left : List Char} (inked : isBlankText left = false)
      (indent : ∀ c ∈ cut, isIndent c = true) (width : cut.length = n) :
      MovesLeft n (cut ++ left) left

theorem movesLeft_shiftLeft {n : Nat} {row : List Char}
    (h : isBlankText row = false → n ≤ indentation row) : MovesLeft n row (shiftLeft n row) := by
  unfold shiftLeft
  split
  · rename_i hblank
    exact .blank hblank
  · rename_i hink
    have hink : isBlankText row = false := Bool.eq_false_iff.mpr hink
    have hindent := isIndent_of_mem_take (h hink)
    have hleft : isBlankText (row.drop n) = false := by
      rw [← isBlankText_append hindent, List.take_append_drop, hink]
    have hmoved := MovesLeft.inked hleft hindent (length_take_of_le_indentation (h hink))
    rwa [List.take_append_drop] at hmoved

/-- A row that is moved left is blank if it was, and else has lost what it was moved by. -/
theorem MovesLeft.isBlankText_eq {n : Nat} {row left : List Char} (h : MovesLeft n row left) :
    isBlankText left = isBlankText row := by
  cases h with
  | blank hblank => rw [hblank, isBlankText, List.all_nil]
  | inked _ hindent _ => rw [isBlankText_append hindent]

theorem MovesLeft.indentation_eq {n : Nat} {row left : List Char} (h : MovesLeft n row left)
    (hink : isBlankText row = false) : indentation row = n + indentation left := by
  cases h with
  | blank hblank => rw [hblank] at hink; cases hink
  | inked _ hindent hwidth => rw [indentation_append hindent, hwidth]

/-! ## 3. Rows of a text -/

theorem pieces_joined {rows : List (List Char)} (hne : rows ≠ [])
    (h : ∀ row ∈ rows, '\n' ∉ row) : pieces (joined rows) = rows :=
  List.splitOn_intercalate '\n' h hne

/-- A text has one piece more than line feeds. -/
theorem length_pieces (cs : List Char) : (pieces cs).length = cs.count '\n' + 1 := by
  induction cs with
  | nil => rfl
  | cons c cs ih =>
    rw [pieces] at ih ⊢
    rw [List.splitOn_cons_eq_if_modifyHead]
    split
    · rename_i hc
      rw [List.length_cons, ih, eq_of_beq hc, List.count_cons_self]
    · rename_i hc
      rw [List.length_modifyHead, ih, List.count_cons_of_ne (fun heq => hc (beq_iff_eq.mpr heq))]

/-- The rows of a text that moves left are its rows, moved. -/
theorem pieces_dedent {s : String} (h : sharedIndentation s.toList ≠ 0) :
    pieces (dedent s).toList =
      (pieces s.toList).map (shiftLeft (sharedIndentation s.toList)) := by
  rw [toList_dedent h, pieces_joined]
  · exact fun hnil => List.splitOn_ne_nil _ _ (List.map_eq_nil_iff.mp hnil)
  · intro row hrow
    obtain ⟨old, hold, rfl⟩ := List.mem_map.mp hrow
    exact newline_notMem_shiftLeft fun hmem => (mem_of_mem_pieces hold _ hmem).2 rfl

theorem length_pieces_dedent (s : String) :
    (pieces (dedent s).toList).length = (pieces s.toList).length := by
  by_cases hzero : sharedIndentation s.toList = 0
  · rw [dedent_of_zero hzero]
  · rw [pieces_dedent hzero, List.length_map]

theorem movesLeft_of_mem {cs row : List Char} (hrow : row ∈ pieces cs) :
    MovesLeft (sharedIndentation cs) row (shiftLeft (sharedIndentation cs) row) :=
  movesLeft_shiftLeft (sharedIndentation_le hrow)

/-- Nothing is shared any more: the row that was least indented is not indented. -/
theorem sharedIndentation_dedent (s : String) : sharedIndentation (dedent s).toList = 0 := by
  by_cases hzero : sharedIndentation s.toList = 0
  · rwa [dedent_of_zero hzero]
  · have hne : inkedRows s.toList ≠ [] := fun hnil => hzero (sharedIndentation_of_blank hnil)
    obtain ⟨row, hrow, hleast⟩ := (isLeast_sharedIndentation hne).1
    obtain ⟨hpiece, hink⟩ := mem_inkedRows.mp hrow
    have hmoves := movesLeft_of_mem hpiece
    have hmem : shiftLeft (sharedIndentation s.toList) row ∈ pieces (dedent s).toList := by
      rw [pieces_dedent hzero]
      exact List.mem_map_of_mem hpiece
    have hle := sharedIndentation_le hmem (hmoves.isBlankText_eq.trans hink)
    have hwidth := hmoves.indentation_eq hink
    omega

/-- **Moving left twice** is moving left once. -/
theorem dedent_dedent (s : String) : dedent (dedent s) = dedent s :=
  dedent_of_zero (sharedIndentation_dedent s)

/-! ## 4. Bytes that are cut -/

/-- How many bytes fewer a line has without the spaces and tabs at its start. -/
def indentBytes (line : List Char) : Nat :=
  (String.ofList line).utf8ByteSize - (String.ofList (line.dropWhile isIndent)).utf8ByteSize

/-- A row from its `n`-th byte on, if that is where a character starts; a blank row is emptied. -/
def cutBytes? (n : Nat) (row : List Char) : Option String :=
  if isBlankText row then some ""
  else slice (String.ofList row) n (String.ofList row).utf8ByteSize

/-- The text moved left by bytes: the least indentation of the lines that are not blank is cut from
all pieces, and there is no text if it cannot be cut from one. -/
def dedentInBytes? (s : String) : Option String :=
  let n := ((((lines s.toList).filter (!isBlankText ·)).map indentBytes).min?).getD 0
  if n = 0 then some s
  else ((pieces s.toList).mapM (cutBytes? n)).map "\n".intercalate

/-- Spaces and tabs have one byte each. -/
theorem utf8ByteSize_of_isIndent {cs : List Char} (h : ∀ c ∈ cs, isIndent c = true) :
    (String.ofList cs).utf8ByteSize = cs.length := by
  rw [← length_bytes, String.toList_ofList, length_bytes_of_isIndent h]

theorem indentBytes_eq (line : List Char) : indentBytes line = indentation line := by
  have hsplit : String.ofList line =
      String.ofList (line.takeWhile isIndent) ++ String.ofList (line.dropWhile isIndent) := by
    rw [← String.ofList_append, List.takeWhile_append_dropWhile]
  have hindent : ∀ c ∈ line.takeWhile isIndent, isIndent c = true :=
    List.all_eq_true.mp List.all_takeWhile
  rw [indentBytes, hsplit, String.utf8ByteSize_append, Nat.add_sub_cancel,
    utf8ByteSize_of_isIndent hindent, indentation]

/-- What is cut from a row that moves left leaves the row that it is moved to. -/
theorem MovesLeft.cutBytes?_eq {n : Nat} {row left : List Char} (h : MovesLeft n row left) :
    cutBytes? n row = some (String.ofList left) := by
  unfold cutBytes?
  cases h with
  | blank hblank => rw [if_pos hblank]
  | @inked cut left hink hindent hwidth =>
    have hrow : ¬ isBlankText (cut ++ left) = true := by
      rw [isBlankText_append hindent, hink]
      exact Bool.false_ne_true
    rw [if_neg hrow, slice_eq_some_iff]
    refine ⟨String.ofList cut, "", ?_, ?_, ?_⟩
    · rw [String.ofList_append, String.append_empty]
    · rw [utf8ByteSize_of_isIndent hindent, hwidth]
    · rw [String.ofList_append]

theorem mapM_cutBytes? {n : Nat} {rows : List (List Char)}
    (h : ∀ row ∈ rows, MovesLeft n row (shiftLeft n row)) :
    rows.mapM (cutBytes? n) = some ((rows.map (shiftLeft n)).map String.ofList) := by
  induction rows with
  | nil => rfl
  | cons row rows ih =>
    rw [List.mapM_cons, (h row List.mem_cons_self).cutBytes?_eq,
      ih fun r hr => h r (List.mem_cons_of_mem _ hr)]
    rfl

/-- **Every cut succeeds**, and what is left is the text moved left. -/
theorem dedentInBytes?_eq_some (s : String) : dedentInBytes? s = some (dedent s) := by
  have hshared : ((((lines s.toList).filter (!isBlankText ·)).map indentBytes).min?).getD 0 =
      sharedIndentation s.toList := by
    rw [sharedIndentation, funext indentBytes_eq]
  unfold dedentInBytes?
  rw [hshared]
  dsimp only
  split
  · rename_i hzero
    rw [dedent_of_zero hzero]
  · rename_i hpos
    rw [mapM_cutBytes? fun row => movesLeft_of_mem, Option.map_some, Option.some.injEq,
      ← String.toList_inj, toList_dedent hpos, String.toList_intercalate, List.map_map,
      joined]
    simp [Function.comp_def]

/-! ## 5. What moving left does -/

/-- A text `t` is `s` moved left by its least indentation. -/
structure IsDedented (s t : String) : Prop where
  /-- Every cut is inside its row and between characters. -/
  cut : dedentInBytes? s = some t
  /-- The lines, on which the indentation is measured, have that of the rows it is cut from. -/
  measured : ((lines s.toList).filter (!isBlankText ·)).map indentation =
    (inkedRows s.toList).map indentation
  /-- No line feed is lost and none is added. -/
  breaks : t.toList.count '\n' = s.toList.count '\n'
  /-- If the least indentation is not zero, all rows move left by it. -/
  moved : ∀ n, IsLeast (indentations s.toList) n → 0 < n →
    List.Forall₂ (MovesLeft n) (pieces s.toList) (pieces t.toList)
  /-- If it is zero, or if there is none, the text stays as it is. -/
  unmoved : (∀ n, IsLeast (indentations s.toList) n → n = 0) → t = s

/-- What is least can only be what is shared. -/
theorem sharedIndentation_eq_of_isLeast {cs : List Char} {n : Nat}
    (h : IsLeast (indentations cs) n) : sharedIndentation cs = n := by
  obtain ⟨row, hrow, -⟩ := h.1
  exact (isLeast_sharedIndentation (List.ne_nil_of_mem hrow)).unique h

theorem sharedIndentation_eq_zero {cs : List Char}
    (h : ∀ n, IsLeast (indentations cs) n → n = 0) : sharedIndentation cs = 0 := by
  by_cases hrows : inkedRows cs = []
  · exact sharedIndentation_of_blank hrows
  · exact h _ (isLeast_sharedIndentation hrows)

theorem count_newline_dedent (s : String) :
    (dedent s).toList.count '\n' = s.toList.count '\n' := by
  have hpieces := length_pieces_dedent s
  rw [length_pieces, length_pieces] at hpieces
  exact Nat.succ.inj hpieces

/-- **A text is moved left by its least indentation**, without a cut that fails, and once. -/
theorem dedent_isDedented (s : String) :
    IsDedented s (dedent s) ∧ dedent (dedent s) = dedent s := by
  refine ⟨⟨dedentInBytes?_eq_some s, map_indentation_lines _, count_newline_dedent s, ?_, ?_⟩,
    dedent_dedent s⟩
  · intro n hleast hpos
    obtain rfl := sharedIndentation_eq_of_isLeast hleast
    rw [pieces_dedent (Nat.ne_of_gt hpos), List.forall₂_map_right_iff, List.forall₂_same]
    exact fun row => movesLeft_of_mem
  · exact fun hzero => dedent_of_zero (sharedIndentation_eq_zero hzero)

/-! ## 6. Indentation that is shared -/

/-- From `s` to `t` a text `p` of spaces and tabs was taken off, which all rows that are not blank
start with, and there is no longer one. -/
structure TakesShared (p : List Char) (s t : String) : Prop where
  indent : ∀ c ∈ p, isIndent c = true
  taken : List.Forall₂ (fun row left => isBlankText row = false → row = p ++ left)
    (pieces s.toList) (pieces t.toList)
  longest : inkedRows s.toList ≠ [] → ∀ q : List Char, (∀ c ∈ q, isIndent c = true) →
    (∀ row ∈ inkedRows s.toList, q <+: row) → q.length ≤ p.length

/-- All of some rows start with the same `n` characters. -/
def SameStart (n : Nat) (rows : List (List Char)) : Prop :=
  ∀ row ∈ rows, ∀ other ∈ rows, row.take n = other.take n

instance (n : Nat) (rows : List (List Char)) : Decidable (SameStart n rows) :=
  inferInstanceAs (Decidable (∀ row ∈ rows, ∀ other ∈ rows, row.take n = other.take n))

theorem le_indentation_of_mem {cs row : List Char} (h : row ∈ inkedRows cs) :
    sharedIndentation cs ≤ indentation row := by
  obtain ⟨hpiece, hink⟩ := mem_inkedRows.mp h
  exact sharedIndentation_le hpiece hink

/-- What is taken off is what each row loses. -/
theorem forall₂_dedent_iff (p : List Char) (s : String) :
    List.Forall₂ (fun row left => isBlankText row = false → row = p ++ left)
        (pieces s.toList) (pieces (dedent s).toList) ↔
      ∀ row ∈ inkedRows s.toList, row = p ++ row.drop (sharedIndentation s.toList) := by
  simp only [mem_inkedRows, and_imp]
  by_cases hzero : sharedIndentation s.toList = 0
  · rw [dedent_of_zero hzero, List.forall₂_same, hzero]
    simp only [List.drop_zero]
  · rw [pieces_dedent hzero, List.forall₂_map_right_iff, List.forall₂_same]
    refine forall₂_congr fun row _ => forall_congr' fun hink => ?_
    rw [shiftLeft, hink, if_neg Bool.false_ne_true]

/-- **The rows share what is taken off** exactly if they start alike, as far as the least indented
one is indented. -/
theorem exists_takesShared_iff (s : String) : (∃ p, TakesShared p s (dedent s)) ↔
    SameStart (sharedIndentation s.toList) (inkedRows s.toList) := by
  constructor
  · rintro ⟨p, -, htaken, -⟩
    have hstart : ∀ row ∈ inkedRows s.toList, row.take (sharedIndentation s.toList) = p := by
      intro row hrow
      have hsplit : row.take (sharedIndentation s.toList) ++ row.drop (sharedIndentation s.toList) =
          p ++ row.drop (sharedIndentation s.toList) := by
        rw [List.take_append_drop]
        exact (forall₂_dedent_iff p s).mp htaken row hrow
      exact List.append_cancel_right hsplit
    intro row hrow other hother
    rw [hstart row hrow, hstart other hother]
  · intro hsame
    by_cases hrows : inkedRows s.toList = []
    · refine ⟨[], ⟨fun c hc => absurd hc List.not_mem_nil, ?_, fun hne => absurd hrows hne⟩⟩
      rw [forall₂_dedent_iff, hrows]
      exact fun row hrow => absurd hrow List.not_mem_nil
    · obtain ⟨least, hleast, hwidth⟩ := (isLeast_sharedIndentation hrows).1
      refine ⟨least.take (sharedIndentation s.toList), ?_, ?_, ?_⟩
      · exact isIndent_of_mem_take (le_indentation_of_mem hleast)
      · rw [forall₂_dedent_iff]
        intro row hrow
        rw [hsame least hleast row hrow, List.take_append_drop]
      · intro _ q hindent hshared
        rw [length_take_of_le_indentation (le_indentation_of_mem hleast), ← hwidth]
        exact length_le_indentation hindent (hshared least hleast)

/-- Rows that are indented with one character start alike. -/
theorem sameStart_of_uniform {cs : List Char} {c : Char}
    (h : ∀ row ∈ inkedRows cs, ∀ d ∈ row.takeWhile isIndent, d = c) :
    SameStart (sharedIndentation cs) (inkedRows cs) := by
  have hstart : ∀ row ∈ inkedRows cs,
      row.take (sharedIndentation cs) = List.replicate (sharedIndentation cs) c := by
    intro row hrow
    have hle := le_indentation_of_mem hrow
    refine List.eq_replicate_iff.mpr ⟨length_take_of_le_indentation hle, fun d hd => ?_⟩
    rw [take_eq_take_takeWhile hle] at hd
    exact h row hrow d (List.mem_of_mem_take hd)
  intro row hrow other hother
  rw [hstart row hrow, hstart other hother]

/-- **A text loses what its rows share** exactly if they start alike, as those do that are all
indented with one character.  What is read at a second attempt is such a text. -/
theorem dedent_takesShared_iff (source : String) :
    ((∃ p, TakesShared p source (dedent source)) ↔
      SameStart (sharedIndentation source.toList) (inkedRows source.toList)) ∧
    (∀ c, (∀ row ∈ inkedRows source.toList, ∀ d ∈ row.takeWhile isIndent, d = c) →
      ∃ p, TakesShared p source (dedent source)) ∧
    ∀ grammar d, Python.parse grammar source = .ok d → d.text ≠ normalize source →
      ((∃ p, TakesShared p (normalize source) d.text) ↔
        SameStart (sharedIndentation (normalize source).toList)
          (inkedRows (normalize source).toList)) := by
  refine ⟨exists_takesShared_iff source, ?_, ?_⟩
  · exact fun c huniform => (exists_takesShared_iff source).mpr (sameStart_of_uniform huniform)
  · intro grammar d hparse hmoved
    obtain ⟨-, -, htext | ⟨htext, -⟩⟩ := Python.parse_eq_ok hparse
    · exact absurd htext hmoved
    · rw [htext]
      exact exists_takesShared_iff (normalize source)

/-- Two rows in one column, one behind spaces and one behind as many tabs, and between them one
that is blank. -/
def mixedText : String := "    x = 1\n\u3000\n\t\t\t\ty = x"

/-- What the grammar answers for that text, which has a fault, and for what is left of it. -/
def mixedGrammar : Syntax.Grammar := .recorded mixedText [
  (Syntax.Tree.ofRecords? [
    ⟨0, "module", 8, 4, 23, none⟩, ⟨1, "ERROR", 12, 4, 23, none⟩,
    ⟨2, "expression_statement", 0, 4, 9, none⟩, ⟨3, "assignment", 0, 4, 9, none⟩,
    ⟨4, "identifier", 0, 4, 5, "left"⟩, ⟨4, "=", 1, 6, 7, none⟩,
    ⟨4, "integer", 0, 8, 9, "right"⟩, ⟨2, "ERROR", 12, 10, 13, none⟩,
    ⟨3, "ERROR", 4, 10, 13, none⟩, ⟨2, "expression_statement", 0, 18, 23, none⟩,
    ⟨3, "assignment", 0, 18, 23, none⟩, ⟨4, "identifier", 0, 18, 19, "left"⟩,
    ⟨4, "=", 1, 20, 21, none⟩, ⟨4, "identifier", 0, 22, 23, "right"⟩]).getD default,
  (Syntax.Tree.ofRecords? [
    ⟨0, "module", 0, 0, 12, none⟩, ⟨1, "expression_statement", 0, 0, 5, none⟩,
    ⟨2, "assignment", 0, 0, 5, none⟩, ⟨3, "identifier", 0, 0, 1, "left"⟩,
    ⟨3, "=", 1, 2, 3, none⟩, ⟨3, "integer", 0, 4, 5, "right"⟩,
    ⟨1, "expression_statement", 0, 7, 12, none⟩, ⟨2, "assignment", 0, 7, 12, none⟩,
    ⟨3, "identifier", 0, 7, 8, "left"⟩, ⟨3, "=", 1, 9, 10, none⟩,
    ⟨3, "identifier", 0, 11, 12, "right"⟩]).getD default]

/-- **Indentation that is not shared is stripped**: the row behind tabs and the row behind spaces
lose all of it, and the text is read with both in the first column. -/
theorem mixed_indentation_stripped :
    normalize mixedText = mixedText ∧ dedent mixedText = "x = 1\n\ny = x" ∧
      (¬ ∃ p, TakesShared p mixedText (dedent mixedText)) ∧
      ∃ d, Python.parse mixedGrammar mixedText = .ok d ∧ d.text = dedent mixedText := by
  have hnormal : normalize mixedText = mixedText := by decide +kernel
  have hmixed : ¬ SameStart (sharedIndentation mixedText.toList) (inkedRows mixedText.toList) := by
    decide +kernel
  refine ⟨hnormal, by decide +kernel, ?_, ?_⟩
  · exact fun hshared => hmixed ((exists_takesShared_iff mixedText).mp hshared)
  · exact ⟨{ language := .python, text := dedent mixedText,
             tree := mixedGrammar (dedent mixedText) }, rfl, rfl⟩

end CodeDiagram.Text
