/-
# Counting lines

How many lines of a text hold more than blanks, before and after its breaks are made uniform.

In a uniform text every break ends a line.  The statistics count the lines of the text as it is,
where a lone carriage return stands in the middle of a line like any blank, and where leading byte
order marks make their line one that is not blank.  So the two counts part
(`CodeStats.linesOfCode_collect_eq_iff`): the one misses the lines that only carriage returns keep
apart (`hiddenLines`), and has one too many if there is nothing but byte order marks in its first
line (`markLines`).  Without byte order marks they are the same exactly if no row has two parts that
are not blank (`CodeStats.linesOfCode_collect_of_unmarked`).
-/
import CodeDiagram.Diagram.Stats
import CodeDiagram.FrontEnd.Python
import CodeDiagram.Proofs.Text.Breaks
import CodeDiagram.Proofs.Text.Terminators
import CodeDiagram.Syntax.Recorded
import Mathlib.Algebra.GroupWithZero.Nat

namespace CodeDiagram

namespace Text

/-! ## 1. Rows -/

/-- How many rows hold more than blanks. -/
def inked (rows : List (List Char)) : Nat := rows.countP (!isBlankText ·)

theorem inked_cons (row : List Char) (rows : List (List Char)) :
    inked (row :: rows) = (if isBlankText row then 0 else 1) + inked rows := by
  rw [inked, List.countP_cons, inked, Nat.add_comm]
  cases isBlankText row with
  | true => rfl
  | false => rfl

theorem inked_append (rows rest : List (List Char)) :
    inked (rows ++ rest) = inked rows + inked rest := List.countP_append

/-- The lines that are counted are the rows between line feeds. -/
theorem inkedLineCount_eq (cs : List Char) : inkedLineCount cs = inked (pieces cs) := by
  have hlength := congrArg List.length (map_indentation_lines cs)
  rw [List.length_map, List.length_map] at hlength
  rw [inkedLineCount, hlength, inkedRows, inked, List.countP_eq_length_filter]

section Splitting

variable {p : Char → Bool} {c : Char}

/-- A character of the class ends a part. -/
theorem splitOnP_cons_of_pos (h : p c = true) (cs : List Char) :
    (c :: cs).splitOnP p = [] :: cs.splitOnP p := by
  rw [List.splitOnP_cons_eq_if_modifyHead, if_pos h]

/-- Any other character stands in the first part. -/
theorem splitOnP_cons_of_neg (h : p c = false) (cs : List Char) :
    (c :: cs).splitOnP p = (cs.splitOnP p).modifyHead (c :: ·) := by
  rw [List.splitOnP_cons_eq_if_modifyHead, if_neg (Bool.eq_false_iff.mp h)]

/-- There is a first part. -/
theorem exists_splitOnP_cons (p : Char → Bool) (cs : List Char) :
    ∃ first parts, cs.splitOnP p = first :: parts :=
  List.exists_cons_of_ne_nil (List.splitOnP_ne_nil _ _)

end Splitting

theorem pieces_cons_lineFeed (cs : List Char) : pieces ('\n' :: cs) = [] :: pieces cs :=
  splitOnP_cons_of_pos (p := (· == '\n')) (beq_self_eq_true '\n') cs

theorem pieces_cons_of_ne {c : Char} (h : c ≠ '\n') (cs : List Char) :
    pieces (c :: cs) = (pieces cs).modifyHead (c :: ·) :=
  splitOnP_cons_of_neg (p := (· == '\n')) (beq_eq_false_iff_ne.mpr h) cs

theorem exists_pieces_cons (cs : List Char) : ∃ first rows, pieces cs = first :: rows :=
  exists_splitOnP_cons _ cs

/-! ## 2. Every break ends a line -/

/-- The characters of breaks. -/
def isBreak (c : Char) : Bool := c == '\r' || c == '\n'

/-- Other characters than those of breaks are none of the two. -/
theorem ne_of_isBreak_eq_false {c : Char} (h : isBreak c = false) : c ≠ '\r' ∧ c ≠ '\n' := by
  rwa [isBreak, Bool.or_eq_false_iff, beq_eq_false_iff_ne, beq_eq_false_iff_ne] at h

/-- Rows of a uniform text are parts between breaks.  A pair of a return and a line feed has an
empty part inside, which is no row; the first part is kept apart because the recursion extends
it. -/
theorem exists_pieces_uniform (cs : List Char) : ∃ first rows parts,
    pieces (uniform cs) = first :: rows ∧ cs.splitOnP isBreak = first :: parts ∧
      inked rows = inked parts := by
  induction cs using joinBreakPairs.induct with
  | case1 cs ih =>
    obtain ⟨first, rows, parts, hrows, hparts, hsame⟩ := ih
    refine ⟨[], first :: rows, [] :: first :: parts, ?_, ?_, ?_⟩
    · rw [uniform_pair, pieces_cons_lineFeed, hrows]
    · rw [splitOnP_cons_of_pos rfl, splitOnP_cons_of_pos rfl, hparts]
    · rw [inked_cons, inked_cons, inked_cons, hsame]
      exact (Nat.zero_add _).symm
  | case2 c cs hpair ih =>
    obtain ⟨first, rows, parts, hrows, hparts, hsame⟩ := ih
    rw [uniform_cons (head?_ne_of_not_pair hpair), breakAtReturn]
    cases hc : isBreak c with
    | true =>
      have hfeed : (if c = '\r' then '\n' else c) = '\n' := by
        rw [isBreak, Bool.or_eq_true, beq_iff_eq, beq_iff_eq] at hc
        rcases hc with rfl | rfl
        · rfl
        · rfl
      refine ⟨[], first :: rows, first :: parts, ?_, ?_, ?_⟩
      · rw [hfeed, pieces_cons_lineFeed, hrows]
      · rw [splitOnP_cons_of_pos hc, hparts]
      · rw [inked_cons, inked_cons, hsame]
    | false =>
      refine ⟨c :: first, rows, parts, ?_, ?_, hsame⟩
      · rw [if_neg (ne_of_isBreak_eq_false hc).1, pieces_cons_of_ne (ne_of_isBreak_eq_false hc).2,
          hrows, List.modifyHead_cons]
      · rw [splitOnP_cons_of_neg hc, hparts, List.modifyHead_cons]
  | case3 => exact ⟨[], [], [], rfl, rfl, rfl⟩

/-- The rows of a uniform text hold as much as the parts between breaks. -/
theorem inked_pieces_uniform (cs : List Char) :
    inked (pieces (uniform cs)) = inked (cs.splitOnP isBreak) := by
  obtain ⟨first, rows, parts, hrows, hparts, hsame⟩ := exists_pieces_uniform cs
  rw [hrows, hparts, inked_cons, inked_cons, hsame]

/-- The parts of a row between its carriage returns. -/
def returnParts (row : List Char) : List (List Char) := row.splitOn '\r'

theorem returnParts_cons_return (row : List Char) :
    returnParts ('\r' :: row) = [] :: returnParts row :=
  splitOnP_cons_of_pos (p := (· == '\r')) (beq_self_eq_true '\r') row

theorem returnParts_cons_of_ne {c : Char} (h : c ≠ '\r') (row : List Char) :
    returnParts (c :: row) = (returnParts row).modifyHead (c :: ·) :=
  splitOnP_cons_of_neg (p := (· == '\r')) (beq_eq_false_iff_ne.mpr h) row

theorem exists_returnParts_cons (row : List Char) :
    ∃ first parts, returnParts row = first :: parts := exists_splitOnP_cons _ row

/-- Parts between breaks are parts of rows. -/
theorem splitOnP_isBreak (cs : List Char) :
    cs.splitOnP isBreak = (pieces cs).flatMap returnParts := by
  induction cs with
  | nil => rfl
  | cons c cs ih =>
    obtain ⟨row, rows, hrows⟩ := exists_pieces_cons cs
    obtain ⟨first, parts, hparts⟩ := exists_returnParts_cons row
    rw [hrows, List.flatMap_cons, hparts, List.cons_append] at ih
    by_cases hfeed : c = '\n'
    · rw [hfeed, splitOnP_cons_of_pos rfl, ih, pieces_cons_lineFeed, hrows, List.flatMap_cons,
        List.flatMap_cons, hparts]
      rfl
    · rw [pieces_cons_of_ne hfeed, hrows, List.modifyHead_cons, List.flatMap_cons]
      by_cases hreturn : c = '\r'
      · rw [hreturn, splitOnP_cons_of_pos rfl, ih, returnParts_cons_return, hparts]
        rfl
      · have hbreak : isBreak c = false := by simp [isBreak, hreturn, hfeed]
        rw [splitOnP_cons_of_neg hbreak, ih, returnParts_cons_of_ne hreturn, hparts]
        rfl

/-- A row is blank exactly when all of its parts are: a carriage return is a blank. -/
theorem all_returnParts (row : List Char) :
    (returnParts row).all isBlankText = isBlankText row := by
  induction row with
  | nil => rfl
  | cons c row ih =>
    by_cases hreturn : c = '\r'
    · rw [hreturn, returnParts_cons_return, List.all_cons, ih]
      rfl
    · obtain ⟨first, parts, hparts⟩ := exists_returnParts_cons row
      rw [hparts, List.all_cons] at ih
      rw [returnParts_cons_of_ne hreturn, hparts, List.modifyHead_cons, List.all_cons, isBlankText,
        List.all_cons, Bool.and_assoc, ← isBlankText, ih]
      rfl

/-- A row that is not blank has a part that is not. -/
theorem inked_returnParts_eq_zero_iff (row : List Char) :
    inked (returnParts row) = 0 ↔ isBlankText row = true := by
  rw [← all_returnParts, inked, List.countP_eq_zero, List.all_eq_true]
  simp

/-! ## 3. What the two counts differ in -/

/-- A text without the byte order marks at its start. -/
def unmarked (s : String) : List Char := s.toList.dropWhile (· == byteOrderMark)

/-- The lines that nothing but lone carriage returns keep apart from the one before. -/
def hiddenLines (s : String) : Nat :=
  ((pieces (unmarked s)).map fun row => inked (returnParts row) - 1).sum

/-- The lines of nothing but byte order marks and blanks: the first one, or none. -/
def markLines (s : String) : Nat :=
  if s.toList.head? = some byteOrderMark ∧ isBlankText ((pieces (unmarked s)).headD []) then 1
  else 0

/-- Rows have as many parts that are not blank as there are rows that are not, and the others. -/
theorem inked_flatMap_returnParts (rows : List (List Char)) :
    inked (rows.flatMap returnParts) =
      inked rows + (rows.map fun row => inked (returnParts row) - 1).sum := by
  induction rows with
  | nil => rfl
  | cons row rows ih =>
    have hblank := inked_returnParts_eq_zero_iff row
    rw [List.flatMap_cons, inked_append, ih, inked_cons, List.map_cons, List.sum_cons]
    split
    · next h =>
      have := hblank.mpr h
      omega
    · next h =>
      have := mt hblank.mp h
      omega

/-- A byte order mark changes its row only. -/
theorem tail_pieces_mark (cs : List Char) :
    (pieces (byteOrderMark :: cs)).tail = (pieces cs).tail := by
  rw [pieces_cons_of_ne (by decide), List.tail_modifyHead]

/-- The rows behind the first one do not see the byte order marks. -/
theorem tail_pieces_dropWhile (cs : List Char) :
    (pieces (cs.dropWhile (· == byteOrderMark))).tail = (pieces cs).tail := by
  induction cs with
  | nil => rfl
  | cons c cs ih =>
    rw [List.dropWhile_cons]
    split
    · next hmark => rw [ih, beq_iff_eq.mp hmark, tail_pieces_mark]
    · rfl

/-- A byte order mark makes its row one that is not blank. -/
theorem inked_pieces_mark (cs : List Char) :
    inked (pieces (byteOrderMark :: cs)) = 1 + inked (pieces cs).tail := by
  obtain ⟨row, rows, hrows⟩ := exists_pieces_cons cs
  have hrow : isBlankText (byteOrderMark :: row) = false := rfl
  rw [pieces_cons_of_ne (by decide), hrows, List.modifyHead_cons, inked_cons, hrow]
  rfl

/-- A text that starts with none has no byte order marks to lose. -/
theorem unmarked_eq_self {s : String} (h : s.toList.head? ≠ some byteOrderMark) :
    unmarked s = s.toList := by
  rw [unmarked]
  cases hs : s.toList with
  | nil => rfl
  | cons c cs =>
    rw [hs, List.head?_cons] at h
    rw [List.dropWhile_cons, if_neg (fun hmark => h (congrArg some (beq_iff_eq.mp hmark)))]

/-- Byte order marks add their line, if it is blank otherwise. -/
theorem inked_pieces_toList (s : String) :
    inked (pieces s.toList) = inked (pieces (unmarked s)) + markLines s := by
  by_cases hmark : s.toList.head? = some byteOrderMark
  · obtain ⟨cs, hcs⟩ := List.head?_eq_some_iff.mp hmark
    obtain ⟨row, rows, hrows⟩ := exists_pieces_cons (unmarked s)
    have hrest : rows = (pieces cs).tail := by
      rw [← tail_pieces_mark, ← hcs, ← tail_pieces_dropWhile, ← unmarked, hrows, List.tail_cons]
    rw [markLines, hrows, inked_cons, List.headD_cons, hrest, hcs, inked_pieces_mark]
    by_cases hblank : isBlankText row = true
    · rw [if_pos hblank, if_pos ⟨List.head?_cons, hblank⟩]
      omega
    · rw [if_neg hblank, if_neg (fun h => hblank h.2), Nat.add_zero]
  · rw [markLines, if_neg (fun h => hmark h.1), Nat.add_zero, unmarked_eq_self hmark]

/-- **The lines of a text and those of the normalized one.** -/
theorem inkedLineCount_toList (s : String) :
    inkedLineCount s.toList + hiddenLines s =
      inkedLineCount (normalize s).toList + markLines s := by
  rw [inkedLineCount_eq, inkedLineCount_eq, inked_pieces_toList, toList_normalize,
    normalizeChars_eq, inked_pieces_uniform, splitOnP_isBreak, inked_flatMap_returnParts,
    hiddenLines, unmarked]
  omega

/-- Only the characters in front of its break are counted of a line, so that a pair counts as one
line feed does.  The first row is kept apart because the recursion extends it. -/
theorem exists_pieces_of_pairs {cs : List Char} (h : .terminator .carriage ∉ tokens cs) :
    ∃ first rows first' rows', pieces (uniform cs) = first :: rows ∧ pieces cs = first' :: rows' ∧
      isBlankText first = isBlankText first' ∧ inked rows = inked rows' := by
  induction cs using joinBreakPairs.induct with
  | case1 cs ih =>
    rw [tokens] at h
    obtain ⟨first, rows, first', rows', hrows, hrows', hblank, hsame⟩ :=
      ih fun hmem => h (List.mem_cons_of_mem _ hmem)
    refine ⟨[], first :: rows, ['\r'], first' :: rows', ?_, ?_, rfl, ?_⟩
    · rw [uniform_pair, pieces_cons_lineFeed, hrows]
    · rw [pieces_cons_of_ne (by decide), pieces_cons_lineFeed, hrows', List.modifyHead_cons]
    · rw [inked_cons, inked_cons, hblank, hsame]
  | case2 c cs hpair ih =>
    have halone := head?_ne_of_not_pair hpair
    rw [tokens_cons halone, List.mem_cons, not_or] at h
    obtain ⟨first, rows, first', rows', hrows, hrows', hblank, hsame⟩ := ih h.2
    have hreturn : c ≠ '\r' := by
      rintro rfl
      exact h.1 rfl
    rw [uniform_cons halone, breakAtReturn, if_neg hreturn]
    by_cases hfeed : c = '\n'
    · refine ⟨[], first :: rows, [], first' :: rows', ?_, ?_, rfl, ?_⟩
      · rw [hfeed, pieces_cons_lineFeed, hrows]
      · rw [hfeed, pieces_cons_lineFeed, hrows']
      · rw [inked_cons, inked_cons, hblank, hsame]
    · refine ⟨c :: first, rows, c :: first', rows', ?_, ?_, ?_, hsame⟩
      · rw [pieces_cons_of_ne hfeed, hrows, List.modifyHead_cons]
      · rw [pieces_cons_of_ne hfeed, hrows', List.modifyHead_cons]
      · rw [isBlankText, isBlankText, List.all_cons, List.all_cons, ← isBlankText, ← isBlankText,
          hblank]
  | case3 => exact ⟨[], [], [], [], rfl, rfl, rfl, rfl⟩

/-- Where every carriage return belongs to a pair and no byte order mark stands in front, the lines
of the text are those of the normalized one. -/
theorem inkedLineCount_normalize_of_pairs {s : String}
    (hmark : s.toList.head? ≠ some byteOrderMark)
    (hpairs : .terminator .carriage ∉ tokens s.toList) :
    inkedLineCount (normalize s).toList = inkedLineCount s.toList := by
  obtain ⟨first, rows, first', rows', hrows, hrows', hblank, hsame⟩ := exists_pieces_of_pairs hpairs
  rw [inkedLineCount_eq, inkedLineCount_eq, toList_normalize, normalizeChars_eq, ← unmarked,
    unmarked_eq_self hmark, hrows, hrows', inked_cons, inked_cons, hblank, hsame]

/-- No line is hidden exactly when no row has two parts that are not blank. -/
theorem hiddenLines_eq_zero_iff (s : String) :
    hiddenLines s = 0 ↔ ∀ row ∈ pieces (unmarked s), inked (returnParts row) ≤ 1 := by
  rw [hiddenLines, List.sum_eq_zero_iff_forall_eq_nat]
  simp [Nat.sub_eq_zero_iff_le]

end Text

/-! ## 4. The statistics -/

open Text

/-- The lines are counted whether or not the text can be read. -/
theorem CodeStats.linesOfCode_collect (fe : FrontEnd) (grammar : Syntax.Grammar) (s : String) :
    (collect fe grammar s).linesOfCode = inkedLineCount s.toList := by
  rw [collect]
  cases fe.parse grammar s with
  | error e => rfl
  | ok d => rfl

/-- **The lines that are counted are those of the normalized text, without the hidden ones and with
the line of the byte order marks.** -/
theorem CodeStats.linesOfCode_collect_eq_iff (fe : FrontEnd) (grammar : Syntax.Grammar)
    (s : String) :
    (collect fe grammar s).linesOfCode + hiddenLines s =
        inkedLineCount (normalize s).toList + markLines s ∧
      ((collect fe grammar s).linesOfCode = inkedLineCount (normalize s).toList ↔
        hiddenLines s = markLines s) := by
  have hbalance := inkedLineCount_toList s
  rw [linesOfCode_collect]
  exact ⟨hbalance, by omega⟩

/-- Two lines that a carriage return keeps apart are counted as one, and byte order marks in a line
of their own as one line more. -/
theorem CodeStats.linesOfCode_of_returns_and_marks :
    let stats := collect Python.frontEnd Syntax.Tree.unread
    (stats "x = 1\ry = 2").linesOfCode = 1 ∧
      inkedLineCount (normalize "x = 1\ry = 2").toList = 2 ∧
      (stats "\uFEFF\nx = 1").linesOfCode = 2 ∧
      inkedLineCount (normalize "\uFEFF\nx = 1").toList = 1 := by
  dsimp only
  rw [linesOfCode_collect, linesOfCode_collect]
  decide

/-- Without a byte order mark the counts are the same exactly if no row has two parts that are not
blank. -/
theorem CodeStats.linesOfCode_collect_of_unmarked (fe : FrontEnd) (grammar : Syntax.Grammar)
    {s : String} (hmark : s.toList.head? ≠ some byteOrderMark) :
    (collect fe grammar s).linesOfCode = inkedLineCount (normalize s).toList ↔
      ∀ row ∈ pieces s.toList, inked (returnParts row) ≤ 1 := by
  have hbalance := inkedLineCount_toList s
  have hmarks : markLines s = 0 := if_neg fun h => hmark h.1
  have hhidden := hiddenLines_eq_zero_iff s
  rw [unmarked_eq_self hmark] at hhidden
  rw [linesOfCode_collect, ← hhidden]
  omega

/-- The counts are the same for a text of line feeds and pairs without a byte order mark. -/
theorem CodeStats.linesOfCode_collect_of_pairs (fe : FrontEnd) (grammar : Syntax.Grammar)
    {s : String} (hmark : s.toList.head? ≠ some byteOrderMark)
    (hpairs : .terminator .carriage ∉ tokens s.toList) :
    (collect fe grammar s).linesOfCode = inkedLineCount (normalize s).toList := by
  rw [linesOfCode_collect, inkedLineCount_normalize_of_pairs hmark hpairs]

end CodeDiagram
