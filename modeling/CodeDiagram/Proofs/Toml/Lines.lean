/-
# Lines that were written are read

A line is read by itself: `ReadsAs` says what a text stands for wherever the line ends behind it.
A pair of a bare key and a scalar does (`readsAs_pair`), as do a header of one bare key and the
empty line.  A text of such lines is read line by line (`parse_join`).
-/
import CodeDiagram.Toml.Reader
import Mathlib.Data.List.Forall2

namespace CodeDiagram.Toml

open Number (isDigit)

/-! ## 1. Keys -/

/-- A key that needs no quotes. -/
def IsBareKey (key : String) : Prop := key ≠ "" ∧ ∀ c ∈ key.toList, isBare c = true

-- Asked for the characters of the key: a search among all characters does not end.
instance (key : String) : Decidable (IsBareKey key) :=
  decidable_of_iff (key ≠ "" ∧ key.toList.all isBare = true) (by simp [IsBareKey])

/-- A bare character is not one that is not bare. -/
theorem ne_of_isBare {c d : Char} (h : isBare c = true) (h' : isBare d = false) : c ≠ d := by
  rintro rfl
  simp [h'] at h

theorem isBlank_of_isBare {c : Char} (h : isBare c = true) : isBlank c = false := by
  simp [isBlank, ne_of_isBare h (d := ' ') (by decide), ne_of_isBare h (d := '\t') (by decide)]

section

variable {key : String} (bare : IsBareKey key)

include bare

/-- A bare key starts with a bare character. -/
theorem IsBareKey.exists_cons : ∃ c cs, key.toList = c :: cs ∧ isBare c = true := by
  cases h : key.toList with
  | nil => exact absurd (String.toList_eq_nil_iff.mp h) bare.1
  | cons c cs => exact ⟨c, cs, rfl, bare.2 c (by simp [h])⟩

theorem IsBareKey.skipBlank_append (rest : List Char) :
    skipBlank (key.toList ++ rest) = key.toList ++ rest := by
  obtain ⟨c, cs, isCons, first⟩ := bare.exists_cons
  simp [skipBlank, isCons, isBlank_of_isBare first]

/-- A bare key is taken up to the first character that is not bare. -/
theorem IsBareKey.simpleKey_append {d : Char} (other : isBare d = false) (rest : List Char) :
    simpleKey (key.toList ++ d :: rest) = some (key, d :: rest) := by
  have taken : (key.toList ++ d :: rest).takeWhile isBare = key.toList := by
    rw [List.takeWhile_append_of_pos bare.2]
    simp [other]
  have left : (key.toList ++ d :: rest).dropWhile isBare = d :: rest := by
    rw [List.dropWhile_append_of_pos bare.2]
    simp [other]
  obtain ⟨c, cs, isCons, first⟩ := bare.exists_cons
  have double := ne_of_isBare first (d := '"') (by decide)
  have single := ne_of_isBare first (d := '\'') (by decide)
  rw [simpleKey.eq_def]
  split
  · next h => simp [isCons, double] at h
  · next h => simp [isCons, single] at h
  · simp only [taken, left]
    simp [bare.1]

/-- A bare key without others is read up to what follows the blanks behind it. -/
theorem IsBareKey.dottedKey_append {d e : Char} (other : isBare d = false) {rest tail : List Char}
    (next : skipBlank (d :: rest) = e :: tail) (alone : e ≠ '.') :
    dottedKey (key.toList ++ d :: rest) = some ([key], e :: tail) := by
  have turn : deepest = 78 + 1 := rfl
  rw [dottedKey, turn, dottedKeyWithin, bare.skipBlank_append, bare.simpleKey_append other]
  simp [next, alone]

end

/-! ## 2. Lines -/

/-- What a text stands for wherever a line ends behind it. -/
def ReadsAs (text : String) (line : Line) : Prop :=
  ∀ rest, lineHead (text.toList ++ '\n' :: rest) = some (line, '\n' :: rest)

theorem readsAs_blank : ReadsAs "" .blank := fun _ => rfl

theorem readsAs_header (key : String) (bare : IsBareKey key) :
    ReadsAs ("[" ++ key ++ "]") (.header [key] false) := by
  intro rest
  have keys : dottedKey (key.toList ++ ']' :: '\n' :: rest) = some ([key], ']' :: '\n' :: rest) :=
    bare.dottedKey_append (by decide) rfl (by decide)
  obtain ⟨c, cs, isCons, first⟩ := bare.exists_cons
  have single := ne_of_isBare first (d := '[') (by decide)
  have tail : headerTail (key.toList ++ ']' :: '\n' :: rest) =
      some (.header [key] false, '\n' :: rest) := by
    rw [headerTail.eq_def]
    split
    · next h => simp [isCons, single] at h
    · simp [keys]
  simpa [lineHead, skipBlank, isBlank] using tail

/-- No number starts with what is neither a digit nor a sign nor a letter. -/
theorem fixedDigits_cons {c : Char} (h : isDigit c = false) (count : Nat) (cs : List Char) :
    fixedDigits (count + 1) (c :: cs) = none := by
  simp [fixedDigits, h]

/-- What a scalar starts with is no bracket, no brace and no blank. -/
theorem scalar_cons_eq_none {c : Char} (h : c ∈ ['[', '\x7b', ' ', '\t']) (cs : List Char) :
    scalar (c :: cs) = none := by
  simp only [List.mem_cons, List.not_mem_nil, or_false] at h
  have digit : isDigit c = false := by
    obtain rfl | rfl | rfl | rfl := h <;> rfl
  have whole : decimalTail false (c :: cs) = none := by
    have : wholeDigits (c :: cs) = none := by
      rw [wholeDigits.eq_def]
      split
      · next same => simp_all
      · simp [digits, digit]
    simp [decimalTail, this]
  have date : startsDate (c :: cs) = false := by simp [startsDate, fixedDigits_cons digit]
  have time : startsTime (c :: cs) = false := by simp [startsTime, fixedDigits_cons digit]
  obtain rfl | rfl | rfl | rfl := h <;>
    simp [scalar, date, time, number, sign, specialTail, whole]

/-- A value is a scalar where a scalar is read. -/
theorem value_eq_of_scalar {cs rest : List Char} {v : Scalar} (h : scalar cs = some (v, rest)) :
    value cs = some (.scalar v, rest) := by
  have turn : deepest = 78 + 1 := rfl
  rw [value, turn, valueWithin.eq_def]
  dsimp only
  split
  · next rest' => simp [scalar_cons_eq_none] at h
  · next rest' => simp [scalar_cons_eq_none] at h
  · simp [h]

/-- **A bare key and a scalar are read as a pair.** -/
theorem readsAs_pair {key text : String} (bare : IsBareKey key) {v : Scalar}
    (reads : ∀ rest, scalar (text.toList ++ '\n' :: rest) = some (v, '\n' :: rest)) :
    ReadsAs (key ++ " = " ++ text) (.pair ⟨[key], .scalar v⟩) := by
  intro rest
  have isScalar := reads rest
  have start : skipBlank (text.toList ++ '\n' :: rest) = text.toList ++ '\n' :: rest := by
    cases isCons : text.toList ++ '\n' :: rest with
    | nil => rfl
    | cons c cs =>
      by_cases blank : c = ' ' ∨ c = '\t'
      · rw [isCons, scalar_cons_eq_none (by rcases blank with rfl | rfl <;> decide)] at isScalar
        cases isScalar
      · simp [skipBlank, isBlank, not_or.mp blank]
  have keys : dottedKey (key.toList ++ ' ' :: '=' :: ' ' :: (text.toList ++ '\n' :: rest)) =
      some ([key], '=' :: ' ' :: (text.toList ++ '\n' :: rest)) :=
    bare.dottedKey_append (by decide) rfl (by decide)
  have whole : pair value (key.toList ++ ' ' :: '=' :: ' ' :: (text.toList ++ '\n' :: rest)) =
      some (⟨[key], .scalar v⟩, '\n' :: rest) := by
    have blank : skipBlank (' ' :: (text.toList ++ '\n' :: rest)) =
        skipBlank (text.toList ++ '\n' :: rest) := rfl
    simp [pair, keys, blank, start, value_eq_of_scalar isScalar]
  have written : (key ++ " = " ++ text).toList ++ '\n' :: rest =
      key.toList ++ ' ' :: '=' :: ' ' :: (text.toList ++ '\n' :: rest) := by simp
  obtain ⟨c, cs, isCons, first⟩ := bare.exists_cons
  rw [written, lineHead, bare.skipBlank_append]
  rw [isCons] at whole ⊢
  split
  · next h => simp [ne_of_isBare first (d := '[') (by decide)] at h
  · next h => simp at h
  · next h => simp [ne_of_isBare first (d := '#') (by decide)] at h
  · next h => simp [ne_of_isBare first (d := '\n') (by decide)] at h
  · next h => simp [ne_of_isBare first (d := '\r') (by decide)] at h
  · rw [whole]
    rfl

/-! ## 3. Texts -/

/-- The characters of lines, each with its end. -/
def charsOf (texts : List String) : List Char := texts.flatMap fun text => text.toList ++ ['\n']

theorem length_le_charsOf (texts : List String) : texts.length ≤ (charsOf texts).length := by
  induction texts with
  | nil => exact Nat.le_refl 0
  | cons text texts ih =>
    simp only [charsOf, List.flatMap_cons, List.length_append, List.length_cons] at ih ⊢
    omega

theorem toList_join_lines (texts : List String) :
    (String.join (texts.map (· ++ "\n"))).toList = charsOf texts := by
  simp [charsOf, List.flatMap_def, Function.comp_def]

/-- Lines are read one by one, in at least as many turns. -/
theorem linesWithin_charsOf {texts : List String} {lines : List Line}
    (reads : List.Forall₂ ReadsAs texts lines) {turns : Nat} (h : texts.length ≤ turns) :
    linesWithin turns (charsOf texts) = some lines := by
  induction reads generalizing turns with
  | nil => cases turns <;> rfl
  | @cons text line texts lines first rest ih =>
    obtain ⟨turns, rfl⟩ : ∃ k, turns = k + 1 := ⟨turns - 1, by simp at h; omega⟩
    have head := first (charsOf texts)
    have more : linesWithin turns (charsOf texts) = some lines := ih (by simpa using h)
    have chars : charsOf (text :: texts) = text.toList ++ '\n' :: charsOf texts := by
      simp [charsOf]
    rw [chars, linesWithin]
    simp [head, afterLine?, skipBlank, isBlank, skipComment, afterBreak?, more]

/-- **A text of lines is read as the table of what the lines stand for.** -/
theorem parse_join {texts : List String} {lines : List Line}
    (reads : List.Forall₂ ReadsAs texts lines)
    (noMark : (charsOf texts).head? ≠ some '\uFEFF') :
    parse (String.join (texts.map (· ++ "\n"))) =
      Entries.ofSections? (sections lines).1 (sections lines).2 := by
  have start : dropMark (charsOf texts) = charsOf texts := by
    rw [dropMark.eq_def]
    split
    · next h => simp [h] at noMark
    · rfl
  have all : linesWithin ((charsOf texts).length + 1) (charsOf texts) = some lines :=
    linesWithin_charsOf reads (Nat.le_succ_of_le (length_le_charsOf texts))
  simp only [parse, toList_join_lines, start, all]
  rfl

end CodeDiagram.Toml
