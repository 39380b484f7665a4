/-
# Strings and integers that were written are read

A string is read piece by piece: every character is written as one piece (`unitOf`), and the pieces
are the characters again (`stringTail_quoted`).  An integer is read up to what stands behind it,
which has to stop it (`Stops`): its end does not show in its text (`number_toString`).
-/
import CodeDiagram.Json.Reader
import CodeDiagram.Proofs.Number.Digits

namespace CodeDiagram.Json

open Number

/-! ## 1. Strings -/

/-- The number of a control character is read from its digits. -/
theorem hexNumber_hexDigit : ∀ n < 0x20,
    hexNumber? ['0', '0', hexDigit (n / 16), hexDigit n] = some n := by
  decide +kernel

/-- The piece of a string that a character is read as.  A control character without an escape of its
own is written by its number. -/
def unitOf (c : Char) : StringUnit :=
  if c.toNat < 0x20 ∧ c ∉ ['\n', '\r', '\t', '\x08', '\x0c'] then .code c.toNat else .char c

/-- Other characters than quotes, backslashes and controls stand for themselves. -/
theorem stringUnits_cons {c : Char} (hquote : c ≠ '"') (hslash : c ≠ '\\')
    (hcontrol : ¬ c.toNat < 0x20) (rest : List Char) :
    stringUnits (c :: rest) =
      (stringUnits rest).map fun found => (.char c :: found.1, found.2) := by
  rw [stringUnits, if_neg hcontrol]
  · cases stringUnits rest with
    | none => rfl
    | some found => rfl
  · exact hquote
  · exact fun _ _ _ _ _ h => absurd h hslash
  · exact fun _ _ h => absurd h hslash

/-- A character with an escape of its own is read from it. -/
theorem stringUnits_escaped {e c : Char} (h : escaped? e = some c) (rest : List Char) :
    stringUnits ('\\' :: e :: rest) =
      (stringUnits rest).map fun found => (.char c :: found.1, found.2) := by
  rw [stringUnits, h]
  · cases stringUnits rest with
    | none => rfl
    | some found => rfl
  · rintro _ _ _ _ _ rfl
    cases h

/-- Every escape is read as its piece. -/
theorem stringUnits_escapeChar (c : Char) (rest : List Char) :
    stringUnits (escapeChar c ++ rest) =
      (stringUnits rest).map fun found => (unitOf c :: found.1, found.2) := by
  unfold escapeChar
  split
  case h_8 hquote hslash hn hr ht hb hf =>
    split
    · next hcontrol =>
      have hother : c ∉ ['\n', '\r', '\t', '\x08', '\x0c'] := by
        simpa using ⟨hn, hr, ht, hb, hf⟩
      rw [unitOf, if_pos ⟨hcontrol, hother⟩]
      simp only [List.cons_append, List.nil_append, stringUnits, hexNumber_hexDigit _ hcontrol]
      cases stringUnits rest with
      | none => rfl
      | some found => rfl
    · next hcontrol =>
      rw [List.singleton_append, stringUnits_cons hquote hslash hcontrol, unitOf,
        if_neg (fun h => hcontrol h.1)]
  all_goals exact stringUnits_escaped rfl rest

/-- What stands between quotes is read up to the closing one. -/
theorem stringUnits_flatMap (cs rest : List Char) :
    stringUnits (cs.flatMap escapeChar ++ '"' :: rest) = some (cs.map unitOf, rest) := by
  induction cs with
  | nil => rfl
  | cons c cs ih =>
    rw [List.flatMap_cons, List.append_assoc, stringUnits_escapeChar, ih]
    rfl

/-- The pieces are the characters again: no number of a control is half of a character. -/
theorem joinUnits_map (cs : List Char) : joinUnits (cs.map unitOf) = some cs := by
  induction cs with
  | nil => rfl
  | cons c cs ih =>
    rw [List.map_cons, unitOf]
    split
    · next hcontrol =>
      have hhigh : isHighHalf c.toNat = false := by
        simp only [isHighHalf, Bool.and_eq_false_iff, decide_eq_false_iff_not]
        omega
      have hlow : isLowHalf c.toNat = false := by
        simp only [isLowHalf, Bool.and_eq_false_iff, decide_eq_false_iff_not]
        omega
      rw [joinUnits.eq_def]
      simp only [hhigh, hlow, ih, Char.ofNat_toNat]
      rfl
    · rw [joinUnits, ih]
      rfl

/-- **A string is read as it was written.** -/
theorem stringTail_quoted (s : String) (rest : List Char) :
    stringTail (s.toList.flatMap escapeChar ++ '"' :: rest) = .ok (s, rest) := by
  rw [stringTail, stringUnits_flatMap]
  simp only [joinUnits_map, String.ofList_toList]

/-! ## 2. Numbers -/

/-- Whether a number ends in front of a character. -/
def isStop (c : Char) : Bool := !(isDigit c || c == '.' || c == 'e' || c == 'E')

/-- What stands behind a number does not belong to it. -/
def Stops (rest : List Char) : Prop := ∀ c ∈ rest.head?, isStop c = true

theorem Stops.not_isDigit {c : Char} {rest : List Char} (h : Stops (c :: rest)) :
    isDigit c = false := by
  have hstop := h c rfl
  simp only [isStop, Bool.not_eq_true', Bool.or_eq_false_iff] at hstop
  exact hstop.1.1.1

/-- Digits are taken off up to what stops them. -/
theorem digitsOf_append {ds rest : List Char} (h : ∀ c ∈ ds, isDigit c = true)
    (hstop : Stops rest) : digitsOf (ds ++ rest) = (ds, rest) := by
  have htake : rest.takeWhile isDigit = [] := by
    cases rest with
    | nil => rfl
    | cons c rest => rw [List.takeWhile_cons, hstop.not_isDigit, if_neg Bool.false_ne_true]
  have hdrop : rest.dropWhile isDigit = rest := by
    cases rest with
    | nil => rfl
    | cons c rest => rw [List.dropWhile_cons, hstop.not_isDigit, if_neg Bool.false_ne_true]
  rw [digitsOf, List.takeWhile_append_of_pos h, List.dropWhile_append_of_pos h, htake, hdrop,
    List.append_nil]

/-- An integer is read as it was written, after its sign. -/
theorem numberTail_toDigits {negative : Bool} {n : Nat} (h : isInteger negative n = true)
    {rest : List Char} (hstop : Stops rest) :
    numberTail negative (Nat.toDigits 10 n ++ rest) =
      .ok (.int (if negative then -n else n), rest) := by
  have hnumeral := isNumeral_toDigits n
  have hvalue : ofDigits (Nat.toDigits 10 n) = n := by
    rw [ofDigits_eq, Nat.ofDigitChars_ten_toDigits]
  unfold numberTail
  rw [digitsOf_append hnumeral.digits hstop]
  generalize Nat.toDigits 10 n = ds at hnumeral hvalue
  dsimp only
  split
  · exact absurd rfl hnumeral.ne_nil
  · next hzero => cases hnumeral.zero rfl
  · rw [hvalue, h, if_pos]
    · rfl
    · -- nothing behind the digits makes a fraction of them
      rw [Bool.and_true, Bool.not_eq_true']
      split
      · exact absurd (hstop _ rfl) (by decide)
      · exact absurd (hstop _ rfl) (by decide)
      · exact absurd (hstop _ rfl) (by decide)
      · rfl

/-- The sign is taken off in front of digits. -/
theorem number_of_isNumeral {ds : List Char} (h : IsNumeral ds) (rest : List Char) :
    number (ds ++ rest) = numberTail false (ds ++ rest) := by
  obtain ⟨c, ds, rfl⟩ := List.exists_cons_of_ne_nil h.ne_nil
  have hdigit := h.digits c List.mem_cons_self
  rw [List.cons_append, number]
  rintro _ heq
  cases heq
  cases hdigit

/-- **An integer is read as it was written.** -/
theorem number_toString {n : Int} (h : isInteger (n < 0) n.natAbs = true) {rest : List Char}
    (hstop : Stops rest) : number ((toString n).toList ++ rest) = .ok (.int n, rest) := by
  cases n with
  | ofNat n =>
    have hdigits : (toString (Int.ofNat n)).toList = Nat.toDigits 10 n := toList_toString n
    have hsign : ¬ Int.ofNat n < 0 := Int.not_lt.mpr (Int.natCast_nonneg n)
    have hrange : isInteger false n = true := by rwa [decide_eq_false hsign] at h
    rw [hdigits, number_of_isNumeral (isNumeral_toDigits n), numberTail_toDigits hrange hstop]
    rfl
  | negSucc n =>
    have hdigits : (toString (Int.negSucc n)).toList = '-' :: Nat.toDigits 10 (n + 1) := by
      change ("-" ++ toString (n + 1)).toList = _
      rw [String.toList_append, toList_toString]
      rfl
    have hrange : isInteger true (n + 1) = true := by simpa using h
    rw [hdigits, List.cons_append, number, numberTail_toDigits hrange hstop]
    rfl

end CodeDiagram.Json
