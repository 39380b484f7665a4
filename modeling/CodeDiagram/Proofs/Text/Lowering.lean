/-
# Two ways to lower case

`lower` knows the letters of every script and `lowerAscii` only A to Z.  They are compared by what
they can spell: a word of plain characters without a k comes out of the one exactly when it comes
out of the other (`lower_eq_iff`).  The k is left out because the sign for a kelvin, which is no
plain character, has it as its lower-case form.  No other character reaches into the plain ones:
the capital I with a dot turns into two characters, and only the first of them is plain.
-/
import CodeDiagram.Text.Letter

namespace CodeDiagram.Text

/-! ## 1. What the runs of letters reach -/

/-- The run of the sign for a kelvin alone. -/
def kelvinRun : LetterRun := ⟨0x212A, 0x212A, 1, -8383⟩

/-- Whether the letters of a run go to code points of characters that are not plain. -/
def LetterRun.isFar (run : LetterRun) : Bool :=
  0x80 ≤ run.first + run.shift &&
    (run.last + run.shift < 0xD800 ||
      (0xDFFF < run.first + run.shift && run.last + run.shift < 0x110000))

/-- The plain letters and the sign for a kelvin apart, no run reaches the plain characters. -/
theorem letterRuns_isFar :
    ∀ run ∈ letterRuns, run.last < 0x80 ∨ run = kelvinRun ∨ run.isFar = true := by
  decide +kernel

/-- A letter of a run lies between the first and the last one. -/
theorem LetterRun.bounds_of_holds {run : LetterRun} {n : Nat} (h : run.holds n = true) :
    run.first ≤ n ∧ n ≤ run.last := by
  rw [holds, Bool.and_eq_true, Bool.and_eq_true, decide_eq_true_eq, decide_eq_true_eq] at h
  exact h.1

/-- A letter of a far run goes to a character that is not plain. -/
theorem LetterRun.le_toNat_of_isFar {run : LetterRun} {n : Nat} (hfar : run.isFar = true)
    (h : run.holds n = true) : 0x80 ≤ (Char.ofNat (n + run.shift).toNat).toNat := by
  obtain ⟨hfirst, hlast⟩ := bounds_of_holds h
  simp only [isFar, Bool.and_eq_true, Bool.or_eq_true, decide_eq_true_eq] at hfar
  have hvalid : (n + run.shift).toNat.isValidChar := by
    rw [Nat.isValidChar]
    omega
  have hcode : (Char.ofNat (n + run.shift).toNat).toNat = (n + run.shift).toNat := by
    rw [Char.ofNat, dif_pos hvalid]
    rfl
  omega

/-! ## 2. One character -/

/-- Whether a character is a plain one other than the k. -/
def isPlain (c : Char) : Bool := c.toNat < 0x80 && c != 'k'

/-- The others are not plain. -/
theorem isPlain_of_le_toNat {c : Char} (h : 0x80 ≤ c.toNat) : isPlain c = false := by
  rw [isPlain, decide_eq_false (Nat.not_lt.mpr h), Bool.false_and]

/-- A character that is not plain stays as it is where only A to Z are lowered. -/
theorem toLower_of_le_toNat {c : Char} (h : 0x80 ≤ c.toNat) : c.toLower = c := by
  refine dif_neg ?_
  rintro ⟨-, hlast⟩
  have : c.toNat ≤ 'Z'.toNat := hlast
  have : 'Z'.toNat < 0x80 := by decide
  omega

/-- **What a character that is not plain turns into is not plain as a whole.** -/
theorem exists_mem_lowerChar_not_isPlain {c : Char} (h : 0x80 ≤ c.toNat) :
    ∃ d ∈ lowerChar c, isPlain d = false := by
  unfold lowerChar
  dsimp only
  rw [if_neg (by omega)]
  split
  · exact ⟨'\u0307', by simp, by decide⟩
  · split
    · next run hrun =>
      refine ⟨_, List.mem_singleton_self _, ?_⟩
      have hholds : run.holds c.toNat = true := by simpa using List.find?_some hrun
      rcases letterRuns_isFar run (List.mem_of_find?_eq_some hrun) with hlast | rfl | hfar
      · have := (LetterRun.bounds_of_holds hholds).2
        omega
      · have hkelvin : c.toNat = 0x212A :=
          Nat.le_antisymm (LetterRun.bounds_of_holds hholds).2 (LetterRun.bounds_of_holds hholds).1
        rw [hkelvin]
        decide
      · exact isPlain_of_le_toNat (LetterRun.le_toNat_of_isFar hfar hholds)
    · exact ⟨c, List.mem_singleton_self c, isPlain_of_le_toNat h⟩

/-- Neither form of the sigma is plain. -/
theorem isPlain_lowerSigma (final : Bool) : isPlain (lowerSigma final) = false := by
  cases final with
  | true => decide
  | false => decide

/-! ## 3. Texts -/

/-- The lower-case form of a text goes on with that of its first character. -/
theorem lowerFrom_cons_of_lt {c : Char} (h : c.toNat < 0x80) (before cs : List Char) :
    lowerFrom before (c :: cs) = c.toLower :: lowerFrom (c :: before) cs := by
  have hsigma : c ≠ capitalSigma := by
    rintro rfl
    exact absurd h (by decide)
  rw [lowerFrom, if_neg hsigma, lowerChar]
  simp only [if_pos h, List.singleton_append]

/-- A text that begins with a character that is not plain has no plain lower-case form. -/
theorem exists_mem_lowerFrom_not_isPlain {c : Char} (h : 0x80 ≤ c.toNat) (before cs : List Char) :
    ∃ d ∈ lowerFrom before (c :: cs), isPlain d = false := by
  rw [lowerFrom]
  by_cases hsigma : c = capitalSigma
  · rw [if_pos hsigma]
    exact ⟨_, List.mem_append_left _ (List.mem_singleton_self _), isPlain_lowerSigma _⟩
  · rw [if_neg hsigma]
    obtain ⟨d, hd, hplain⟩ := exists_mem_lowerChar_not_isPlain h
    exact ⟨d, List.mem_append_left _ hd, hplain⟩

/-- Character by character, wherever the text stands. -/
theorem lowerFrom_eq_iff (cs : List Char) (before : List Char) {ws : List Char}
    (hws : ∀ w ∈ ws, isPlain w = true) :
    lowerFrom before cs = ws ↔ cs.map Char.toLower = ws := by
  induction cs generalizing before ws with
  | nil => rfl
  | cons c cs ih =>
    rcases Nat.lt_or_ge c.toNat 0x80 with hc | hc
    · rw [lowerFrom_cons_of_lt hc, List.map_cons]
      cases ws with
      | nil => simp
      | cons w ws => rw [List.cons.injEq, List.cons.injEq, ih _ (List.forall_mem_cons.mp hws).2]
    · -- neither side is plain: the first character of the one, some character of the other
      constructor
      · rintro rfl
        obtain ⟨d, hd, hplain⟩ := exists_mem_lowerFrom_not_isPlain hc before cs
        exact absurd (hws d hd) (Bool.eq_false_iff.mp hplain)
      · rintro rfl
        have hplain := hws _ (List.mem_map_of_mem List.mem_cons_self)
        rw [toLower_of_le_toNat hc, isPlain_of_le_toNat hc] at hplain
        cases hplain

/-- **Both ways to lower case spell the same texts as a plain word without a k.** -/
theorem lower_eq_iff {w : String} (hw : w.toList.all isPlain = true) (s : String) :
    lower s = w ↔ lowerAscii s = w := by
  rw [lower, lowerAscii, ← String.toList_inj, ← String.toList_inj, String.toList_ofList,
    String.toList_ofList]
  exact lowerFrom_eq_iff s.toList [] (List.all_eq_true.mp hw)

/-- The k has to be left out. -/
example : lower "\u212A" = "k" ∧ lowerAscii "\u212A" ≠ "k" := by decide

end CodeDiagram.Text
