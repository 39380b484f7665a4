/-
# The shortest decimal reads back

`Binary.shortest` tries one digit more at a time until a decimal lies in the number's interval.
Three facts make it a way back:

* what is tried is taken only if it lies in the interval (`contains_iff`, `holds_of_candidate`), and
  zeros taken off its end change nothing (`value_stripped`);
* seventeen digits are always enough: a unit in the last of them is less than half as wide as the
  interval, so one of the two decimals around the number lies inside (`candidate_isSome`);
* a decimal in the interval is neither too large nor too small to be cut (`Binary.Fits.le_of_holds`,
  `Binary.Fits.holds_lt`), and is rounded to the number (`Binary.Fits.nearestBits_eq`).

Together they are `Binary.Fits.holds_shortest` and `Binary.Fits.nearestBits_of_holds`.
-/
import CodeDiagram.Proofs.Number.Rounding
import Mathlib.Data.Nat.Cast.Order.Field

namespace CodeDiagram.Number

/-! ## 1. Decimals as fractions -/

/-- The fraction that a decimal is. -/
def Decimal.value (d : Decimal) : ℚ := d.digits * 10 ^ d.exponent

/-- A decimal is tested for an interval as the fraction that it is. -/
theorem Interval.contains_iff {i : Interval} (h : 0 < i.below) (d : Decimal) :
    i.contains d = true ↔ i.Holds d.value := by
  have down : (0 : ℚ) < (powerOfTen d.exponent).2 := by exact_mod_cast (powerOfTen_pos d.exponent).2
  have below : (0 : ℚ) < i.below := by exact_mod_cast h
  have value : d.value = d.digits * (powerOfTen d.exponent).1 / (powerOfTen d.exponent).2 := by
    rw [Decimal.value, ← powerOfTen_div, mul_div_assoc]
  simp only [Interval.contains, Interval.Holds, value, ← mul_div_assoc]
  split
  · rw [Bool.and_eq_true, decide_eq_true_eq, decide_eq_true_eq, div_le_div_iff₀ below down,
      div_le_div_iff₀ down below]
    exact_mod_cast Iff.rfl
  · rw [Bool.and_eq_true, decide_eq_true_eq, decide_eq_true_eq, div_lt_div_iff₀ below down,
      div_lt_div_iff₀ down below]
    exact_mod_cast Iff.rfl

/-- Zeros at the end are taken off without a loss. -/
theorem Decimal.value_stripped (d : Decimal) (turns : ℕ) : (d.stripped turns).value = d.value := by
  induction turns generalizing d with
  | zero => rfl
  | succ turns ih =>
    unfold Decimal.stripped
    split
    · next h =>
      have zero : d.digits % 10 = 0 := by simp at h; exact h.1
      rw [ih, Decimal.value, Decimal.value, zpow_add_one₀ (by norm_num)]
      have := Nat.div_add_mod d.digits 10
      have : (d.digits : ℚ) = 10 * (d.digits / 10 : ℕ) := by
        exact_mod_cast (by omega : d.digits = 10 * (d.digits / 10))
      rw [this]
      ring
    · rfl

/-- The number of digits of a whole number above zero tells the powers of ten around it. -/
theorem digitCount_bounds {n : ℕ} (h : 0 < n) :
    (10 : ℚ) ^ ((digitCount n : ℤ) - 1) ≤ n ∧ (n : ℚ) < 10 ^ (digitCount n : ℤ) := by
  obtain ⟨k, count⟩ : ∃ k, digitCount n = k + 1 :=
    Nat.exists_eq_add_one.mpr Nat.length_toDigits_pos
  have fits (j : ℕ) (hj : 0 < j) : digitCount n ≤ j ↔ n < 10 ^ j :=
    Nat.length_toDigits_le_iff (by decide) hj
  rw [count, Nat.cast_succ, add_sub_cancel_right]
  constructor
  · rcases k.eq_zero_or_pos with rfl | hk
    · exact_mod_cast h
    · have := mt (fits k hk).mpr (by omega)
      rw [zpow_natCast]
      exact_mod_cast Nat.le_of_not_lt this
  · have := (fits (k + 1) k.succ_pos).mp count.le
    rw [← Nat.cast_succ, zpow_natCast]
    exact_mod_cast this

/-! ## 2. Where a fraction starts -/

/-- Past the leading zeros that were counted there is a digit, unless counting stopped. -/
theorem leadingZeros_spec (above below bound : ℕ) :
    below ≤ above * 10 ^ (leadingZeros above below bound + 1) ∨
      leadingZeros above below bound = bound := by
  induction bound generalizing above with
  | zero => exact .inr rfl
  | succ bound ih =>
    unfold leadingZeros
    split
    · next h => exact .inl (by simpa using h)
    · next h =>
      rcases ih (above * 10) with found | stopped
      · left
        calc below ≤ above * 10 * 10 ^ (leadingZeros (above * 10) below bound + 1) := found
          _ = above * 10 ^ (leadingZeros (above * 10) below bound + 1 + 1) := by ring
      · exact .inr (by rw [stopped])

/-- A fraction that is not too small has no digit left of the place that `magnitude` says. -/
theorem magnitude_le {above below : ℕ} (hb : 0 < below)
    (least : (10 : ℚ) ^ (-401 : ℤ) ≤ above / below) :
    (10 : ℚ) ^ (magnitude above below - 1) ≤ above / below := by
  have hb' : (0 : ℚ) < below := by exact_mod_cast hb
  unfold magnitude
  split
  · next h =>
    have whole : 0 < above / below := Nat.div_pos h hb
    calc (10 : ℚ) ^ ((digitCount (above / below) : ℤ) - 1)
        ≤ (above / below : ℕ) := (digitCount_bounds whole).1
      _ ≤ above / below := Nat.cast_div_le
  · rcases leadingZeros_spec above below 400 with found | stopped
    · rw [le_div_iff₀ hb']
      calc (10 : ℚ) ^ (-(leadingZeros above below 400 : ℤ) - 1) * below
          ≤ 10 ^ (-(leadingZeros above below 400 : ℤ) - 1) *
              (above * 10 ^ (leadingZeros above below 400 + 1)) := by
            gcongr
            exact_mod_cast found
        _ = above * (10 ^ (-(leadingZeros above below 400 : ℤ) - 1) *
              10 ^ ((leadingZeros above below 400 : ℤ) + 1)) := by
            rw [← Nat.cast_succ, zpow_natCast, Nat.succ_eq_add_one]
            ring
        _ = above := by
            rw [← zpow_add₀ (by norm_num)]
            simp
    · rw [stopped]
      exact least

/-! ## 3. Candidates -/

/-- The fraction in the middle of an interval. -/
def Interval.center (i : Interval) : ℚ := i.middle * (i.above / i.below)

/-- A candidate is taken only if it lies in the interval. -/
theorem holds_of_candidate {i : Interval} (h : 0 < i.below) {exponent : ℤ} {d : Decimal}
    (taken : candidate? i exponent = some d) : i.Holds d.value := by
  rw [← Interval.contains_iff h]
  simp only [candidate?] at taken
  split at taken
  · next inside _ =>
    rw [← Option.some.inj taken]
    exact inside
  · next _ inside =>
    rw [← Option.some.inj taken]
    exact inside
  · simp at taken
  · next inside inside' =>
    split_ifs at taken <;> rw [← Option.some.inj taken] <;> assumption

/-- With a certain number of digits there is a candidate if one of the two decimals around the
middle lies in the interval. -/
theorem candidate_isSome {i : Interval} (h : 0 < i.below) {exponent : ℤ}
    (around : ∀ n : ℕ, n * 10 ^ exponent ≤ i.center → i.center < (n + 1) * 10 ^ exponent →
      i.Holds (n * 10 ^ exponent) ∨ i.Holds ((n + 1) * 10 ^ exponent)) :
    (candidate? i exponent).isSome := by
  have up := (powerOfTen_pos exponent).1
  have up' : (0 : ℚ) < (powerOfTen exponent).1 := by exact_mod_cast up
  have down : (0 : ℚ) < (powerOfTen exponent).2 := by exact_mod_cast (powerOfTen_pos exponent).2
  have below : (0 : ℚ) < i.below := by exact_mod_cast h
  set n := i.middle * i.above * (powerOfTen exponent).2 / (i.below * (powerOfTen exponent).1)
    with n_def
  have cut : i.center / 10 ^ exponent =
      (i.middle * i.above * (powerOfTen exponent).2 : ℕ) /
        (i.below * (powerOfTen exponent).1 : ℕ) := by
    rw [Interval.center, ← powerOfTen_div, div_div_eq_mul_div]
    push_cast
    field_simp
  have unit : (0 : ℚ) < 10 ^ exponent := by positivity
  have low : n * 10 ^ exponent ≤ i.center := by
    rw [← le_div_iff₀ unit, cut, n_def]
    exact Nat.cast_div_le
  have high : i.center < (n + 1) * 10 ^ exponent := by
    rw [← div_lt_iff₀ unit, cut, div_lt_iff₀ (by positivity)]
    rw [mul_comm ((n : ℚ) + 1)]
    exact_mod_cast Nat.lt_mul_div_succ _ (Nat.mul_pos h up)
  have inside : i.contains ⟨n, exponent⟩ = true ∨ i.contains ⟨n + 1, exponent⟩ = true := by
    rw [Interval.contains_iff h, Interval.contains_iff h, Decimal.value, Decimal.value]
    exact_mod_cast around n low high
  simp only [candidate?, ← n_def]
  split
  · rfl
  · rfl
  · next no no' => simp [no, no'] at inside
  · split_ifs <;> rfl

/-- If a number of digits is enough, what is found up to there lies in the interval. -/
theorem holds_firstCandidate {i : Interval} (h : 0 < i.below) (magnitude : ℤ) (digits turns : ℕ)
    (last : (candidate? i (magnitude - (digits + turns : ℕ))).isSome) :
    i.Holds (firstCandidate i magnitude digits (turns + 1)).value := by
  induction turns generalizing digits with
  | zero =>
    obtain ⟨d, taken⟩ := Option.isSome_iff_exists.mp last
    simp only [Nat.add_zero] at taken
    simpa [firstCandidate, taken] using holds_of_candidate h taken
  | succ turns ih =>
    unfold firstCandidate
    split
    · next d taken => exact holds_of_candidate h taken
    · refine ih (digits + 1) ?_
      rwa [Nat.add_right_comm]

/-! ## 4. Seventeen digits are enough -/

/-- The middle of a number's interval is the number. -/
theorem Binary.center_interval (b : Binary) :
    b.interval.center = b.significand * 2 ^ b.exponent := by
  simp only [Interval.center, Binary.interval, powerOfTwo_div, zpow_sub₀ (two_ne_zero (α := ℚ))]
  push_cast
  ring

theorem Binary.interval_below_pos (b : Binary) : 0 < b.interval.below :=
  (powerOfTwo_pos _).2

section

variable {b : Binary} (fits : b.Fits)

include fits

/-- What is nearer to a number than the end of its interval lies inside. -/
theorem Binary.Fits.holds_of_near {q : ℚ}
    (near : |q / 2 ^ b.exponent - b.significand| < b.reach) : b.interval.Holds q := by
  have reach := b.reach_le
  obtain ⟨low, high⟩ := abs_lt.mp near
  rw [fits.holds_iff]
  refine ⟨by linarith, by linarith, ?_⟩
  rintro (same | same) <;> linarith

/-- A number with seventeen digits is less than twice the reach away from the next one. -/
theorem Binary.Fits.significand_lt : (b.significand : ℚ) < 2 * b.reach * 10 ^ 16 := by
  unfold Binary.reach
  split
  · next narrow =>
    rw [(fits.narrow.mp narrow).1]
    norm_num
  · have : (b.significand : ℚ) < 2 ^ 53 := by exact_mod_cast fits.short
    norm_num at this ⊢
    linarith

/-- One of two neighbours around a number lies in the number's interval if they have seventeen
digits. -/
theorem Binary.Fits.holds_around {exponent : ℤ}
    (digits : (10 : ℚ) ^ (exponent + 16) ≤ b.interval.center) (n : ℕ)
    (low : n * 10 ^ exponent ≤ b.interval.center)
    (high : b.interval.center < (n + 1) * 10 ^ exponent) :
    b.interval.Holds (n * 10 ^ exponent) ∨ b.interval.Holds ((n + 1) * 10 ^ exponent) := by
  have unit : (0 : ℚ) < 2 ^ b.exponent := by positivity
  have close := fits.significand_lt
  obtain ⟨w, step⟩ : ∃ w : ℚ, (10 : ℚ) ^ exponent = w * 2 ^ b.exponent :=
    ⟨10 ^ exponent / 2 ^ b.exponent, by field_simp⟩
  rw [b.center_interval] at digits low high
  rw [zpow_add₀ (by norm_num), step, mul_right_comm, mul_le_mul_iff_left₀ unit] at digits
  rw [step, ← mul_assoc, mul_le_mul_iff_left₀ unit] at low
  rw [step, ← mul_assoc, mul_lt_mul_iff_left₀ unit] at high
  have narrow : w < 2 * b.reach := by
    norm_num at digits close
    linarith
  rw [step, ← mul_assoc, ← mul_assoc]
  rcases le_or_gt (b.significand - n * w) (w / 2) with left | right
  · left
    apply fits.holds_of_near
    rw [mul_div_cancel_right₀ _ unit.ne', abs_lt]
    constructor <;> linarith
  · right
    apply fits.holds_of_near
    rw [mul_div_cancel_right₀ _ unit.ne', abs_lt]
    constructor <;> linarith

/-! ## 5. The way back -/

omit fits in
/-- Large powers of two and of ten compare like powers that they are powers of. -/
theorem two_zpow_le_ten_zpow {a b : ℕ} (h : (2 : ℚ) ^ a ≤ 10 ^ b) (k : ℕ) :
    (2 : ℚ) ^ ((a * k : ℕ) : ℤ) ≤ 10 ^ ((b * k : ℕ) : ℤ) := by
  rw [zpow_natCast, zpow_natCast, pow_mul, pow_mul]
  gcongr

/-- The interval of a number is not near to zero. -/
theorem Binary.Fits.le_of_holds {q : ℚ} (holds : b.interval.Holds q) :
    (10 : ℚ) ^ (-330 : ℤ) ≤ q := by
  have low := ((fits.holds_iff q).mp holds).1
  have reach := b.reach_le
  have positive : (1 : ℚ) ≤ b.significand := by exact_mod_cast fits.positive
  have unit : (0 : ℚ) < 2 ^ b.exponent := by positivity
  have small : (2 : ℚ) ^ (1075 : ℤ) ≤ 10 ^ (330 : ℤ) :=
    two_zpow_le_ten_zpow (a := 215) (b := 66) (by norm_num) 5
  calc (10 : ℚ) ^ (-330 : ℤ) ≤ 2 ^ (-1075 : ℤ) := by
        rw [zpow_neg, zpow_neg]
        gcongr
    _ ≤ 2 ^ (b.exponent - 1) := by
        have := fits.least
        unfold leastExponent at this
        exact zpow_le_zpow_right₀ one_le_two (by omega)
    _ = 1 / 2 * 2 ^ b.exponent := by
        rw [zpow_sub_one₀ two_ne_zero]
        ring
    _ ≤ q := by
        rw [← le_div_iff₀ unit]
        linarith

/-- The interval of a number is not beyond the largest power of ten. -/
theorem Binary.Fits.holds_lt {q : ℚ} (holds : b.interval.Holds q) : q < 10 ^ (310 : ℤ) := by
  have high := ((fits.holds_iff q).mp holds).2.1
  have unit : (0 : ℚ) < 2 ^ b.exponent := by positivity
  have short : (b.significand : ℚ) + 1 ≤ 2 ^ 53 := by exact_mod_cast fits.short
  have large : (2 : ℚ) ^ (1025 : ℤ) ≤ 10 ^ (310 : ℤ) :=
    two_zpow_le_ten_zpow (a := 205) (b := 62) (by norm_num) 5
  calc q < 2 ^ 53 * 2 ^ b.exponent := by
        rw [← div_lt_iff₀ unit]
        linarith
    _ = 2 ^ (53 + b.exponent) := by
        rw [zpow_add₀ two_ne_zero]
        norm_num
    _ ≤ 2 ^ (1025 : ℤ) := by
        have := fits.most
        exact zpow_le_zpow_right₀ one_le_two (by omega)
    _ ≤ 10 ^ (310 : ℤ) := large

/-- The shortest decimal of a number lies in the number's interval. -/
theorem Binary.Fits.holds_shortest : b.interval.Holds b.shortest.value := by
  have center : b.interval.center = (b.fraction.1 : ℚ) / b.fraction.2 := by
    rw [b.center_interval, Binary.fraction, ← powerOfTwo_div]
    push_cast
    rw [mul_div_assoc]
  have inside : b.interval.Holds b.interval.center := by
    apply fits.holds_of_near
    rw [b.center_interval, mul_div_cancel_right₀ _ (by positivity), sub_self, abs_zero]
    unfold Binary.reach
    split <;> norm_num
  have least : (10 : ℚ) ^ (-401 : ℤ) ≤ b.fraction.1 / b.fraction.2 := by
    rw [← center]
    refine le_trans ?_ (fits.le_of_holds inside)
    exact zpow_le_zpow_right₀ (by norm_num) (by norm_num)
  have below : 0 < b.fraction.2 := (powerOfTwo_pos b.exponent).2
  have first := magnitude_le below least
  unfold Binary.shortest
  simp only [Decimal.value_stripped]
  apply holds_firstCandidate b.interval_below_pos
  apply candidate_isSome b.interval_below_pos
  intro n
  apply fits.holds_around
  rw [center]
  convert first using 2
  push_cast
  ring

/-- A decimal in the interval of a number is not zero. -/
theorem Binary.Fits.digits_pos {d : Decimal} (holds : b.interval.Holds d.value) :
    0 < d.digits := by
  have least := fits.le_of_holds holds
  by_contra! h
  rw [Decimal.value, Nat.le_zero.mp h, Nat.cast_zero, zero_mul] at least
  exact absurd least (not_le_of_gt (by positivity))

/-- A decimal in the interval of a number is read as the number. -/
theorem Binary.Fits.nearestBits_of_holds {d : Decimal} (holds : b.interval.Holds d.value) :
    d.nearestBits = b.bits := by
  have least := fits.le_of_holds holds
  have most := fits.holds_lt holds
  have positive := fits.digits_pos holds
  obtain ⟨low, high⟩ := digitCount_bounds positive
  have unit : (0 : ℚ) < 10 ^ d.exponent := by positivity
  have place_le : (digitCount d.digits : ℤ) - 1 + d.exponent < 310 := by
    apply (zpow_lt_zpow_iff_right₀ (by norm_num : (1 : ℚ) < 10)).mp
    refine lt_of_le_of_lt ?_ most
    rw [zpow_add₀ (by norm_num), Decimal.value]
    gcongr
  have le_place : -330 < (digitCount d.digits : ℤ) + d.exponent := by
    apply (zpow_lt_zpow_iff_right₀ (by norm_num : (1 : ℚ) < 10)).mp
    refine lt_of_le_of_lt least ?_
    rw [zpow_add₀ (by norm_num), Decimal.value]
    gcongr
  have value : d.value =
      (d.digits * (powerOfTen d.exponent).1 : ℕ) / (powerOfTen d.exponent).2 := by
    rw [Decimal.value, ← powerOfTen_div]
    push_cast
    rw [mul_div_assoc]
  have smallest : smallestPlace = -330 := rfl
  have largest : largestPlace = 310 := rfl
  have large_enough :
      ¬((d.digits = 0 || digitCount d.digits + d.exponent < smallestPlace) = true) := by
    rw [Bool.or_eq_true, decide_eq_true_eq, decide_eq_true_eq]
    omega
  have small_enough : ¬(digitCount d.digits + d.exponent > largestPlace) := by omega
  simp only [Decimal.nearestBits, if_neg large_enough, if_neg small_enough]
  exact fits.nearestBits_eq (powerOfTen_pos d.exponent).2 (value ▸ holds)

end

end CodeDiagram.Number
