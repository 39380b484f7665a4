/-
# Breaks and indentation

A line is found by counting the line feeds before a byte.  When a text is moved left, every line
keeps its number and loses some bytes at its start, so a byte of the moved text comes from one that
stands as much further right in the same line (`undedented`).  As many line feeds are before the one
as before the other (`breaksBefore_dedent`), and they are the same byte (`getElem?_dedent`).

The first holds whatever is cut from the lines, since no line feed is; the second needs that the cut
takes nothing but indentation, which is one byte for each column.
-/
import CodeDiagram.Text.Lines
import CodeDiagram.Text.Slice
import Mathlib.Data.List.Basic
import Mathlib.Order.Bounds.Basic

namespace CodeDiagram.Text

/-! ## 1. Bytes -/

/-- The bytes of a text. -/
def bytes (cs : List Char) : List UInt8 := cs.flatMap String.utf8EncodeChar

theorem bytes_append (cs ds : List Char) : bytes (cs ++ ds) = bytes cs ++ bytes ds :=
  List.flatMap_append

theorem toList_toUTF8 (s : String) : s.toUTF8.data.toList = bytes s.toList := by
  have hencode : s.toUTF8 = s.toList.utf8Encode := by
    rw [String.toUTF8_eq_toByteArray, ← String.toByteArray_ofList, String.ofList_toList]
  rw [hencode, List.utf8Encode]
  simp [bytes]

theorem getElem?_toUTF8 (s : String) (k : Nat) : s.toUTF8[k]? = (bytes s.toList)[k]? := by
  rw [← toList_toUTF8, Array.getElem?_toList]
  rfl

theorem length_bytes (s : String) : (bytes s.toList).length = s.utf8ByteSize := by
  rw [← toList_toUTF8, Array.length_toList]
  rfl

/-- The byte of a line feed. -/
def lineFeed : UInt8 := 10

/-- What is counted are the line feeds among the first bytes. -/
theorem breaksBefore_eq_count (s : String) (k : Nat) :
    breaksBefore s k = ((bytes s.toList).take k).count lineFeed := by
  induction k with
  | zero => simp [breaksBefore]
  | succ k ih =>
    rw [breaksBefore] at ih ⊢
    rw [Nat.fold_succ, ih, getElem?_toUTF8, List.take_add_one, List.count_append]
    cases (bytes s.toList)[k]? with
    | none => simp
    | some b =>
      by_cases hb : b = lineFeed
      · simp [hb, lineFeed]
      · have hne : ¬ b = 10 := hb
        simp [hb, hne]

/-- No other character has the byte of a line feed in it: a byte of a longer code is never that
small. -/
theorem lineFeed_notMem_utf8EncodeChar {c : Char} (h : c ≠ '\n') :
    lineFeed ∉ String.utf8EncodeChar c := by
  have hvalue : c.val.toNat ≠ 10 := fun heq => h (Char.ext (UInt32.toNat.inj heq))
  have hbytes : ∀ b ∈ String.utf8EncodeChar c, b.toNat ≠ 10 := by
    intro b hb
    unfold String.utf8EncodeChar at hb
    dsimp only at hb
    split at hb
    · rw [List.mem_singleton] at hb
      rw [hb, UInt8.toNat_ofNat']
      omega
    · have hlarge : ∃ n, b = UInt8.ofNat n ∧ 128 ≤ n ∧ n < 256 := by
        split at hb
        · simp only [List.mem_cons, List.not_mem_nil, or_false] at hb
          rcases hb with rfl | rfl <;> exact ⟨_, rfl, by omega⟩
        · split at hb
          · simp only [List.mem_cons, List.not_mem_nil, or_false] at hb
            rcases hb with rfl | rfl | rfl <;> exact ⟨_, rfl, by omega⟩
          · simp only [List.mem_cons, List.not_mem_nil, or_false] at hb
            rcases hb with rfl | rfl | rfl | rfl <;> exact ⟨_, rfl, by omega⟩
      obtain ⟨n, rfl, hn⟩ := hlarge
      rw [UInt8.toNat_ofNat']
      omega
  exact fun hmem => hbytes _ hmem rfl

theorem lineFeed_notMem_bytes {row : List Char} (h : '\n' ∉ row) : lineFeed ∉ bytes row := by
  intro hmem
  obtain ⟨c, hc, hbyte⟩ := List.mem_flatMap.mp hmem
  exact lineFeed_notMem_utf8EncodeChar (fun heq => h (heq ▸ hc)) hbyte

/-- The characters of an indentation have one byte each. -/
theorem length_bytes_of_isIndent {cs : List Char} (h : ∀ c ∈ cs, isIndent c = true) :
    (bytes cs).length = cs.length := by
  induction cs with
  | nil => rfl
  | cons c cs ih =>
    have hc : c = ' ' ∨ c = '\t' := by simpa [isIndent] using h c List.mem_cons_self
    have hone : (String.utf8EncodeChar c).length = 1 := by
      rcases hc with rfl | rfl <;> rfl
    rw [bytes, List.flatMap_cons, List.length_append, hone, ← bytes,
      ih fun d hd => h d (List.mem_cons_of_mem _ hd), List.length_cons, Nat.add_comm]

/-- What is cut from an indentation is the start of it. -/
theorem take_eq_take_takeWhile {n : Nat} {row : List Char} (h : n ≤ indentation row) :
    row.take n = (row.takeWhile isIndent).take n := by
  conv_lhs => rw [← List.takeWhile_append_dropWhile (p := isIndent) (l := row)]
  exact List.take_append_of_le_length h

theorem isIndent_of_mem_take {n : Nat} {row : List Char} (h : n ≤ indentation row) :
    ∀ c ∈ row.take n, isIndent c = true := by
  intro c hc
  rw [take_eq_take_takeWhile h] at hc
  exact List.all_eq_true.mp List.all_takeWhile c (List.mem_of_mem_take hc)

/-- No more is cut from a row than it has. -/
theorem length_take_of_le_indentation {n : Nat} {row : List Char} (h : n ≤ indentation row) :
    (row.take n).length = n := by
  rw [List.length_take]
  exact Nat.min_eq_left (Nat.le_trans h (List.takeWhile_prefix _).length_le)

/-- What is cut from an indentation is one byte for each column. -/
theorem bytes_drop {n : Nat} {row : List Char} (h : n ≤ indentation row) :
    bytes (row.drop n) = (bytes row).drop n := by
  have hlength : (bytes (row.take n)).length = n := by
    rw [length_bytes_of_isIndent (isIndent_of_mem_take h), length_take_of_le_indentation h]
  have hsplit : bytes row = bytes (row.take n) ++ bytes (row.drop n) := by
    rw [← bytes_append, List.take_append_drop]
  rw [hsplit, List.drop_left' hlength]

/-! ## 2. Rows -/

/-- Where a byte of rows that were moved left comes from: as much further right in the same row.
What comes from an emptied row is the place in it, as far as the row goes. -/
def origin (n : Nat) : List (List Char) → Nat → Nat
  | [], _ => 0
  | [row], k => min (k + n) (bytes row).length
  | row :: next :: rest, k =>
    let width := (bytes (shiftLeft n row)).length
    if k ≤ width then min (k + n) (bytes row).length
    else (bytes row).length + 1 + origin n (next :: rest) (k - (width + 1))

/-- The place of a text that a place of the same text without its shared indentation comes from. -/
def undedented (s : String) (k : Nat) : Nat :=
  origin (sharedIndentation s.toList) (pieces s.toList) k

/-- Rows joined by line feeds. -/
def joined (rows : List (List Char)) : List Char := ['\n'].intercalate rows

theorem bytes_joined_cons (row next : List Char) (rest : List (List Char)) :
    bytes (joined (row :: next :: rest)) =
      bytes row ++ lineFeed :: bytes (joined (next :: rest)) := by
  rw [joined, List.intercalate_cons_cons, bytes_append, bytes_append, ← joined, List.append_assoc]
  rfl

/-- Counting up to a byte: none in the first row, and one behind it. -/
theorem count_take_append_lineFeed {row rest : List UInt8} (h : lineFeed ∉ row) (k : Nat) :
    ((row ++ lineFeed :: rest).take k).count lineFeed =
      if k ≤ row.length then 0 else ((rest.take (k - (row.length + 1))).count lineFeed) + 1 := by
  split
  · rename_i hle
    rw [List.take_append_of_le_length hle, List.count_eq_zero]
    exact fun hmem => h (List.mem_of_mem_take hmem)
  · rename_i hlt
    obtain ⟨j, rfl⟩ := Nat.exists_eq_add_of_lt (Nat.lt_of_not_le hlt)
    rw [Nat.add_assoc, List.take_length_add_append, List.take_succ_cons, List.count_append,
      List.count_cons_self, List.count_eq_zero.mpr h, Nat.zero_add, Nat.add_sub_add_left,
      Nat.add_sub_cancel]

theorem newline_notMem_shiftLeft {n : Nat} {row : List Char} (h : '\n' ∉ row) :
    '\n' ∉ shiftLeft n row := by
  unfold shiftLeft
  split
  · exact List.not_mem_nil
  · exact fun hmem => h (List.mem_of_mem_drop hmem)

/-- **Rows keep their numbers** when they are moved left. -/
theorem count_take_joined (n : Nat) {rows : List (List Char)} (h : ∀ row ∈ rows, '\n' ∉ row)
    (k : Nat) : ((bytes (joined (rows.map (shiftLeft n)))).take k).count lineFeed =
      ((bytes (joined rows)).take (origin n rows k)).count lineFeed := by
  induction rows, k using origin.induct n with
  | case1 => simp [joined, bytes]
  | case2 row k =>
    have hrow := h row (List.mem_singleton_self row)
    have hnone : ∀ {cs : List Char} (j : Nat), '\n' ∉ cs →
        ((bytes cs).take j).count lineFeed = 0 := fun j hcs =>
      List.count_eq_zero.mpr fun hmem => lineFeed_notMem_bytes hcs (List.mem_of_mem_take hmem)
    rw [List.map_singleton, joined, joined, List.intercalate_singleton, List.intercalate_singleton,
      hnone _ hrow, hnone _ (newline_notMem_shiftLeft hrow)]
  | case3 row next rest k width hle =>
    have hrow := h row List.mem_cons_self
    rw [List.map_cons, List.map_cons, bytes_joined_cons, bytes_joined_cons,
      count_take_append_lineFeed (lineFeed_notMem_bytes (newline_notMem_shiftLeft hrow)),
      count_take_append_lineFeed (lineFeed_notMem_bytes hrow), origin, if_pos hle, if_pos hle,
      if_pos (Nat.min_le_right _ _)]
  | case4 row next rest k width hlt ih =>
    have hrow := h row List.mem_cons_self
    have hrest := ih fun r hr => h r (List.mem_cons_of_mem _ hr)
    rw [List.map_cons] at hrest
    rw [List.map_cons, List.map_cons, bytes_joined_cons, bytes_joined_cons,
      count_take_append_lineFeed (lineFeed_notMem_bytes (newline_notMem_shiftLeft hrow)),
      count_take_append_lineFeed (lineFeed_notMem_bytes hrow), origin, if_neg hlt, if_neg hlt,
      if_neg (by omega), hrest, Nat.add_sub_cancel_left]

/-- A byte of a row that was moved left stands further right in that row. -/
theorem getElem?_bytes_of_shiftLeft {n k : Nat} {row : List Char} {b : UInt8}
    (h : isBlankText row = false → n ≤ indentation row)
    (hb : (bytes (shiftLeft n row))[k]? = some b) :
    (bytes row)[min (k + n) (bytes row).length]? = some b := by
  unfold shiftLeft at hb
  split at hb
  · cases hb
  · rename_i hink
    rw [bytes_drop (h (Bool.eq_false_iff.mpr hink)), List.getElem?_drop, Nat.add_comm] at hb
    obtain ⟨hlt, -⟩ := List.getElem?_eq_some_iff.mp hb
    rwa [Nat.min_eq_left (Nat.le_of_lt hlt)]

/-- **Bytes come from their origins**, if nothing was cut but indentation. -/
theorem getElem?_bytes_joined {n : Nat} {rows : List (List Char)} {k : Nat} {b : UInt8}
    (h : ∀ row ∈ rows, isBlankText row = false → n ≤ indentation row)
    (hb : (bytes (joined (rows.map (shiftLeft n))))[k]? = some b) (hne : b ≠ lineFeed) :
    (bytes (joined rows))[origin n rows k]? = some b := by
  induction rows, k using origin.induct n with
  | case1 => cases hb
  | case2 row k =>
    rw [List.map_singleton, joined, List.intercalate_singleton] at hb
    rw [joined, List.intercalate_singleton]
    exact getElem?_bytes_of_shiftLeft (h row List.mem_cons_self) hb
  | case3 row next rest k width hle =>
    rw [List.map_cons, List.map_cons, bytes_joined_cons] at hb
    rw [bytes_joined_cons, origin, if_pos hle]
    rcases Nat.lt_or_eq_of_le hle with hlt | heq
    · rw [List.getElem?_append_left hlt] at hb
      have hrow := getElem?_bytes_of_shiftLeft (h row List.mem_cons_self) hb
      rwa [List.getElem?_append_left (List.getElem?_eq_some_iff.mp hrow).1]
    · rw [heq, List.getElem?_append_right (Nat.le_refl _), Nat.sub_self] at hb
      exact absurd (Option.some.inj hb).symm hne
  | case4 row next rest k width hlt ih =>
    have hlt : (bytes (shiftLeft n row)).length < k := Nat.lt_of_not_le hlt
    obtain ⟨j, rfl⟩ := Nat.exists_eq_add_of_lt hlt
    have hj : (bytes (shiftLeft n row)).length + j + 1 - (width + 1) = j := by
      rw [Nat.add_sub_add_right, Nat.add_sub_cancel_left]
    rw [List.map_cons, List.map_cons, bytes_joined_cons, List.getElem?_append_right (by omega),
      Nat.add_assoc, Nat.add_sub_cancel_left, List.getElem?_cons_succ, ← hj] at hb
    have hrest := ih (fun r hr => h r (List.mem_cons_of_mem _ hr)) (by rwa [List.map_cons])
    rwa [bytes_joined_cons, origin, if_neg (by omega), Nat.add_assoc, Nat.add_comm 1,
      List.getElem?_append_right (Nat.le_add_right _ _), Nat.add_sub_cancel_left,
      List.getElem?_cons_succ]

/-! ## 3. Lines of a text -/

theorem joined_pieces (cs : List Char) : joined (pieces cs) = cs := List.intercalate_splitOn _

/-- A piece has no line feed and only characters of the text. -/
theorem mem_of_mem_pieces {cs row : List Char} (hrow : row ∈ pieces cs) :
    ∀ c ∈ row, c ∈ cs ∧ c ≠ '\n' := by
  induction cs generalizing row with
  | nil =>
    rw [pieces, List.splitOn_nil, List.mem_singleton] at hrow
    simp [hrow]
  | cons x cs ih =>
    rw [pieces, List.splitOn_cons_eq_if_modifyHead] at hrow
    split at hrow
    · rcases List.mem_cons.mp hrow with rfl | hrow
      · simp
      · exact fun c hc => ⟨List.mem_cons_of_mem _ (ih hrow c hc).1, (ih hrow c hc).2⟩
    · rename_i hx
      have hx : x ≠ '\n' := fun heq => hx (beq_iff_eq.mpr heq)
      cases hpieces : cs.splitOn '\n' with
      | nil => exact absurd hpieces (List.splitOn_ne_nil _ _)
      | cons first rest =>
        rw [pieces, hpieces] at ih
        have hold : ∀ r ∈ first :: rest, ∀ c ∈ r, c ∈ x :: cs ∧ c ≠ '\n' := fun r hr c hc =>
          ⟨List.mem_cons_of_mem _ (ih hr c hc).1, (ih hr c hc).2⟩
        rw [hpieces, List.modifyHead_cons] at hrow
        rcases List.mem_cons.mp hrow with rfl | hrow
        · intro c hc
          rcases List.mem_cons.mp hc with rfl | hc
          · exact ⟨List.mem_cons_self, hx⟩
          · exact hold first List.mem_cons_self c hc
        · exact hold row (List.mem_cons_of_mem _ hrow)

/-- A line is the piece that it is made from, or that piece without its last return. -/
theorem dropReturn_eq_or (row : List Char) :
    dropReturn row = row ∨ row = dropReturn row ++ ['\r'] := by
  unfold dropReturn
  split
  · rename_i rest hrev
    right
    rw [← List.reverse_reverse row, hrev, List.reverse_cons]
  · exact Or.inl rfl

theorem isBlankText_dropReturn (row : List Char) :
    isBlankText (dropReturn row) = isBlankText row := by
  rcases dropReturn_eq_or row with h | h
  · rw [h]
  · have hreturn : isBlank '\r' = true := rfl
    conv_rhs => rw [h]
    simp [isBlankText, hreturn]

theorem indentation_dropReturn (row : List Char) :
    indentation (dropReturn row) = indentation row := by
  rcases dropReturn_eq_or row with h | h
  · rw [h]
  · have hreturn : ['\r'].takeWhile isIndent = [] := rfl
    conv_rhs => rw [h]
    rw [indentation, indentation, List.takeWhile_append, hreturn, List.append_nil]
    split
    · assumption
    · rfl

/-- The rows of a text that hold more than blanks. -/
def inkedRows (cs : List Char) : List (List Char) := (pieces cs).filter (!isBlankText ·)

theorem mem_inkedRows {cs row : List Char} :
    row ∈ inkedRows cs ↔ row ∈ pieces cs ∧ isBlankText row = false := by
  simp [inkedRows]

/-- The lines of a text and its pieces are indented alike: a return at the end of a piece is a
blank behind the indentation, and the piece that is no line is empty. -/
theorem map_indentation_lines (cs : List Char) :
    ((lines cs).filter (!isBlankText ·)).map indentation = (inkedRows cs).map indentation := by
  have hended : ∀ rows : List (List Char),
      ((rows.map dropReturn).filter (!isBlankText ·)).map indentation =
        (rows.filter (!isBlankText ·)).map indentation := by
    intro rows
    simp [List.filter_map, Function.comp_def, isBlankText_dropReturn, indentation_dropReturn]
  unfold lines inkedRows
  split
  · rename_i hnil
    exact absurd (List.reverse_eq_nil_iff.mp hnil) (List.splitOn_ne_nil _ _)
  · rename_i last ended hrev
    have hpieces : pieces cs = ended.reverse ++ [last] := by
      rw [← List.reverse_reverse (pieces cs), hrev, List.reverse_cons]
    rw [hpieces, ← List.map_reverse]
    dsimp only
    split
    · rename_i hlast
      rw [List.isEmpty_iff.mp hlast, List.filter_append, List.map_append, hended]
      simp [isBlankText]
    · rw [List.filter_append, List.map_append, hended, ← List.map_append, ← List.filter_append]

/-- How far the rows that are not blank are indented. -/
def indentations (cs : List Char) : Set Nat := {n | ∃ row ∈ inkedRows cs, indentation row = n}

/-- What is shared is the least of them. -/
theorem isLeast_sharedIndentation {cs : List Char} (h : inkedRows cs ≠ []) :
    IsLeast (indentations cs) (sharedIndentation cs) := by
  unfold sharedIndentation
  rw [map_indentation_lines]
  cases hmin : ((inkedRows cs).map indentation).min? with
  | none => exact absurd (List.map_eq_nil_iff.mp (List.min?_eq_none_iff.mp hmin)) h
  | some n =>
    obtain ⟨hmem, hle⟩ := List.min?_eq_some_iff.mp hmin
    refine ⟨List.mem_map.mp hmem, ?_⟩
    rintro k ⟨row, hrow, rfl⟩
    exact hle _ (List.mem_map_of_mem hrow)

/-- Nothing is shared where all is blank. -/
theorem sharedIndentation_of_blank {cs : List Char} (h : inkedRows cs = []) :
    sharedIndentation cs = 0 := by
  rw [sharedIndentation, map_indentation_lines, h]
  rfl

/-- A row that is not blank is at least as far right as all are. -/
theorem sharedIndentation_le {cs row : List Char} (hrow : row ∈ pieces cs)
    (hink : isBlankText row = false) : sharedIndentation cs ≤ indentation row := by
  have hmem := mem_inkedRows.mpr ⟨hrow, hink⟩
  exact (isLeast_sharedIndentation (List.ne_nil_of_mem hmem)).2 ⟨row, hmem, rfl⟩

/-- Without shared indentation a text stays as it is. -/
theorem dedent_of_zero {s : String} (h : sharedIndentation s.toList = 0) : dedent s = s := by
  rw [dedent, dedentChars, if_pos h, String.ofList_toList]

/-- With some, all rows move left by it. -/
theorem toList_dedent {s : String} (h : sharedIndentation s.toList ≠ 0) : (dedent s).toList =
    joined ((pieces s.toList).map (shiftLeft (sharedIndentation s.toList))) := by
  rw [dedent, String.toList_ofList, dedentChars, if_neg h, joined]

/-- A text that moves left has shared indentation. -/
theorem sharedIndentation_ne_zero {s : String} (h : dedent s ≠ s) :
    sharedIndentation s.toList ≠ 0 := fun hzero => h (dedent_of_zero hzero)

/-- **Lines keep their numbers** when a text is moved left. -/
theorem breaksBefore_dedent {s : String} (h : dedent s ≠ s) (k : Nat) :
    breaksBefore (dedent s) k = breaksBefore s (undedented s k) := by
  rw [breaksBefore_eq_count, breaksBefore_eq_count, toList_dedent (sharedIndentation_ne_zero h),
    count_take_joined, joined_pieces, undedented]
  exact fun row hrow hmem => (mem_of_mem_pieces hrow _ hmem).2 rfl

/-- **Bytes come from their origins** when a text is moved left. -/
theorem getElem?_dedent {s : String} (h : dedent s ≠ s) {k : Nat} {b : UInt8}
    (hb : (dedent s).toUTF8[k]? = some b) (hne : b ≠ lineFeed) :
    s.toUTF8[undedented s k]? = some b := by
  rw [getElem?_toUTF8, toList_dedent (sharedIndentation_ne_zero h)] at hb
  have hrows := getElem?_bytes_joined (fun row => sharedIndentation_le) hb hne
  rwa [joined_pieces, ← getElem?_toUTF8] at hrows

end CodeDiagram.Text
