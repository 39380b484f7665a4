/-
# Digits in front of a point and behind it

The text of a decimal is digits, a point and digits: `Decimal.positional` writes the point only
where it is needed, and zeros where there are no digits.  In front of the point there is always a
digit, and a zero only where it is the only one (`IsNumeral`).  Put together again, the digits are
the decimal (`Decimal.positional_spec`).
-/
import CodeDiagram.Number.Natural
import CodeDiagram.Proofs.Number.Shortest
import Mathlib.Tactic.IntervalCases

namespace CodeDiagram.Number

/-! ## 1. Numerals -/

/-- Digits that a whole number is written with: at least one, and no zero in front of others. -/
structure IsNumeral (ds : List Char) : Prop where
  ne_nil : ds ≠ []
  digits : ∀ c ∈ ds, isDigit c = true
  zero : ds.head? = some '0' → ds = ['0']

theorem ofDigits_eq (ds : List Char) : ofDigits ds = Nat.ofDigitChars 10 ds 0 := rfl

/-- Digits behind others move those to the left. -/
theorem ofDigits_append (ds es : List Char) :
    ofDigits (ds ++ es) = 10 ^ es.length * ofDigits ds + ofDigits es := by
  rw [ofDigits_eq, Nat.ofDigitChars_append, Nat.ofDigitChars_eq_ofDigitChars_zero]
  rfl

theorem ofDigits_replicate (n : ℕ) : ofDigits (List.replicate n '0') = 0 := by
  rw [ofDigits_eq, Nat.ofDigitChars_replicate_zero, Nat.mul_zero]

@[simp] theorem ofDigits_zero : ofDigits ['0'] = 0 := ofDigits_replicate 1

theorem isDigit_of_mem_toDigits {n : ℕ} {c : Char} (h : c ∈ Nat.toDigits 10 n) :
    isDigit c = true := by
  have := Nat.isDigit_of_mem_toDigits (by decide) (by decide) h
  simpa [isDigit, Char.isDigit, Char.le_def] using this

theorem toList_toString (n : ℕ) : (toString n).toList = Nat.toDigits 10 n := Nat.toList_repr

/-- The first digit of a number above zero is not zero. -/
theorem head_toDigits {n : ℕ} (h : 0 < n) : (Nat.toDigits 10 n).head? ≠ some '0' := by
  induction n using Nat.strong_induction_on with
  | _ n ih =>
    rw [Nat.toDigits_eq_if (by decide)]
    split
    · next small => interval_cases n <;> decide
    · next large =>
      have := ih (n / 10) (by omega) (by omega)
      rwa [List.head?_append_of_ne_nil _ Nat.toDigits_ne_nil]

/-- A number is written as a numeral. -/
theorem isNumeral_toDigits (n : ℕ) : IsNumeral (Nat.toDigits 10 n) where
  ne_nil := Nat.toDigits_ne_nil
  digits _ := isDigit_of_mem_toDigits
  zero h := by
    rcases n.eq_zero_or_pos with rfl | positive
    · exact Nat.toDigits_zero 10
    · exact absurd h (head_toDigits positive)

/-! ## 2. Texts of decimals -/

/-- What the digits around a point stand for. -/
def pointed (whole fraction : List Char) : Decimal :=
  ⟨ofDigits (whole ++ fraction), -(fraction.length : ℤ)⟩

/-- The digits that a point is put into: those of a number, with zeros in front so that there are
more of them than places. -/
def padded (n places : ℕ) : List Char :=
  List.replicate (places + 1 - (Nat.toDigits 10 n).length) '0' ++ Nat.toDigits 10 n

theorem withPoint_eq (n places : ℕ) :
    withPoint n places =
      String.ofList ((padded n places).take ((padded n places).length - places) ++
        '.' :: (padded n places).drop ((padded n places).length - places)) := by
  have text :
      (zeros (places + 1 - (toString n).length) ++ toString n).toList = padded n places := by
    simp [zeros, padded, ← String.length_toList]
  simp only [withPoint, text]
  rw [← String.toList_inj]
  simp

theorem lt_length_padded (n places : ℕ) : places < (padded n places).length := by
  simp only [padded, List.length_append, List.length_replicate]
  omega

theorem ofDigits_padded (n places : ℕ) : ofDigits (padded n places) = n := by
  rw [padded, ofDigits_append, ofDigits_replicate, ofDigits_eq, Nat.ofDigitChars_ten_toDigits]
  omega

theorem isDigit_of_mem_padded {n places : ℕ} {c : Char} (h : c ∈ padded n places) :
    isDigit c = true := by
  rw [padded, List.mem_append, List.mem_replicate] at h
  rcases h with ⟨-, rfl⟩ | h
  · rfl
  · exact isDigit_of_mem_toDigits h

/-- In front of the point stands a numeral: either no zeros are in front, or one is left there. -/
theorem isNumeral_take_padded {n : ℕ} (h : 0 < n) (places : ℕ) :
    IsNumeral ((padded n places).take ((padded n places).length - places)) where
  ne_nil := by
    have := lt_length_padded n places
    rw [← List.length_pos_iff, List.length_take]
    omega
  digits c hc := isDigit_of_mem_padded (List.mem_of_mem_take hc)
  zero first := by
    have long := lt_length_padded n places
    rw [List.head?_take, if_neg (by omega)] at first
    by_cases room : places < (Nat.toDigits 10 n).length
    · have : padded n places = Nat.toDigits 10 n := by
        simp [padded, Nat.sub_eq_zero_of_le (Nat.succ_le_of_lt room)]
      exact absurd (this ▸ first) (head_toDigits h)
    · have one : (padded n places).length - places = 1 := by
        simp only [padded, List.length_append, List.length_replicate]
        omega
      rw [one]
      cases isCons : padded n places with
      | nil => simp [isCons] at long
      | cons c cs =>
        rw [isCons] at first
        simpa using first

/-- **The text of a decimal above zero** has no point, and then it is a numeral, or there are digits
on both sides of its point; they stand for the decimal. -/
theorem Decimal.positional_spec {d : Decimal} (h : 0 < d.digits) :
    (∃ ds, d.positional = String.ofList ds ∧ IsNumeral ds ∧ (pointed ds ['0']).value = d.value) ∨
      ∃ ds es, d.positional = String.ofList (ds ++ '.' :: es) ∧ IsNumeral ds ∧ es ≠ [] ∧
        (∀ c ∈ es, isDigit c = true) ∧ (pointed ds es).value = d.value := by
  unfold Decimal.positional
  split
  · next whole =>
    left
    refine ⟨Nat.toDigits 10 d.digits ++ List.replicate d.exponent.toNat '0', ?_, ⟨?_, ?_, ?_⟩, ?_⟩
    · rw [zeros, String.ofList_append]
      rfl
    · simp
    · simp only [List.mem_append, List.mem_replicate]
      rintro c (hc | ⟨-, rfl⟩)
      · exact isDigit_of_mem_toDigits hc
      · rfl
    · rw [List.head?_append_of_ne_nil _ Nat.toDigits_ne_nil]
      exact fun zero => absurd zero (head_toDigits h)
    · have isNat : (10 : ℚ) ^ d.exponent = 10 ^ d.exponent.toNat := by
        rw [← zpow_natCast, Int.toNat_of_nonneg whole]
      have digits : ofDigits (Nat.toDigits 10 d.digits) = d.digits := Nat.ofDigitChars_ten_toDigits
      simp only [pointed, Decimal.value, ofDigits_append, ofDigits_replicate, digits, isNat,
        List.length_replicate, List.length_singleton]
      push_cast
      rw [ofDigits_zero]
      norm_num
      ring
  · next places =>
    right
    have cut := lt_length_padded d.digits (-d.exponent).toNat
    refine ⟨_, _, withPoint_eq _ _, isNumeral_take_padded h _, ?_, ?_, ?_⟩
    · rw [← List.length_pos_iff, List.length_drop]
      omega
    · exact fun c hc => isDigit_of_mem_padded (List.mem_of_mem_drop hc)
    · rw [pointed, List.take_append_drop, ofDigits_padded, List.length_drop]
      congr 2
      omega

end CodeDiagram.Number
