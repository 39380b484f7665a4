/-
# Rounding to the nearest floating-point number

`nearestBits` cuts a fraction to fifty-three binary digits.  This file settles which fractions it
takes to a given number: all that lie in its `Binary.interval`.

* **In one binade** the number's own exponent is found, and the fraction lies at most half a unit
  from the significand, with the half going to the even one (`roundHalfEven_eq`).
* **Below a power of two** the unit is half as wide.  A fraction from there is cut with an exponent
  one less, and the carry of the significand makes up for it.

Hence `Binary.Fits.nearestBits_eq`.  Nothing is claimed here about fractions outside of all
intervals, that is, beyond the largest number.
-/
import CodeDiagram.Number.Nearest
import Mathlib.Algebra.Order.Field.Power
import Mathlib.Tactic.FieldSimp
import Mathlib.Tactic.Linarith
import Mathlib.Tactic.Positivity
import Mathlib.Tactic.Ring

namespace CodeDiagram.Number

/-! ## 1. Powers as fractions -/

theorem powerOfTwo_pos (e : ℤ) : 0 < (powerOfTwo e).1 ∧ 0 < (powerOfTwo e).2 := by
  unfold powerOfTwo
  split <;> simp

theorem powerOfTen_pos (e : ℤ) : 0 < (powerOfTen e).1 ∧ 0 < (powerOfTen e).2 := by
  unfold powerOfTen
  split <;> simp

/-- The two numbers are the power as a fraction. -/
theorem powerOfTwo_div (e : ℤ) : ((powerOfTwo e).1 : ℚ) / (powerOfTwo e).2 = 2 ^ e := by
  unfold powerOfTwo
  split
  · next h => simp [← zpow_natCast, Int.toNat_of_nonneg h]
  · next h => simp [← zpow_natCast, Int.toNat_of_nonneg (by omega : 0 ≤ -e)]

/-- The two numbers are the power as a fraction. -/
theorem powerOfTen_div (e : ℤ) : ((powerOfTen e).1 : ℚ) / (powerOfTen e).2 = 10 ^ e := by
  unfold powerOfTen
  split
  · next h => simp [← zpow_natCast, Int.toNat_of_nonneg h]
  · next h => simp [← zpow_natCast, Int.toNat_of_nonneg (by omega : 0 ≤ -e)]

/-! ## 2. Whole numbers -/

/-- A number is rounded to one that it is at most a half away from, and to the even one of two.
Everything is doubled and multiplied by the lower part here. -/
theorem roundHalfEven_eq_of_le {above below n : ℕ} (hb : 0 < below)
    (low : 2 * (below * n) ≤ 2 * above + below) (high : 2 * above ≤ 2 * (below * n) + below)
    (tie : 2 * (below * n) = 2 * above + below ∨ 2 * above = 2 * (below * n) + below →
      n % 2 = 0) : roundHalfEven above below = n := by
  have cut := Nat.div_add_mod above below
  have rest := Nat.mod_lt above hb
  have most : n < above / below + 2 := by
    refine Nat.lt_of_mul_lt_mul_left (a := below) ?_
    rw [Nat.mul_add]
    omega
  have least : above / below < n + 1 := by
    refine Nat.lt_of_mul_lt_mul_left (a := below) ?_
    rw [Nat.mul_add]
    omega
  obtain same | next : n = above / below ∨ n = above / below + 1 := by omega
  · rw [same] at low high tie ⊢
    simp only [roundHalfEven]
    split
    · rfl
    · split
      · omega
      · rw [if_pos (tie (by omega))]
  · rw [next, Nat.mul_add] at low high tie
    rw [next]
    simp only [roundHalfEven]
    split
    · omega
    · split
      · rfl
      · have := tie (by omega)
        rw [if_neg (by omega)]

/-- A fraction is rounded to the whole number that it is at most a half away from, and to the even
one of two. -/
theorem roundHalfEven_eq {above below n : ℕ} (hb : 0 < below)
    (low : (n : ℚ) - 1 / 2 ≤ above / below) (high : (above : ℚ) / below ≤ n + 1 / 2)
    (tie : (n : ℚ) - 1 / 2 = above / below ∨ (above : ℚ) / below = n + 1 / 2 → n % 2 = 0) :
    roundHalfEven above below = n := by
  have hb' : (0 : ℚ) < below := by exact_mod_cast hb
  rw [le_div_iff₀ hb'] at low
  rw [div_le_iff₀ hb'] at high
  rw [eq_div_iff hb'.ne', div_eq_iff hb'.ne'] at tie
  apply roundHalfEven_eq_of_le hb
  · have : (2 * (below * n) : ℚ) ≤ 2 * above + below := by linarith
    exact_mod_cast this
  · have : (2 * above : ℚ) ≤ 2 * (below * n) + below := by linarith
    exact_mod_cast this
  · rintro (even | even)
    · refine tie (.inl ?_)
      have : (2 * (below * n) : ℚ) = 2 * above + below := by exact_mod_cast even
      linarith
    · refine tie (.inr ?_)
      have : (2 * above : ℚ) = 2 * (below * n) + below := by exact_mod_cast even
      linarith

/-! ## 3. The place of the first digit -/

/-- A number is between the power of two of its logarithm and the next one. -/
theorem log2_bounds {n : ℕ} (hn : 0 < n) :
    (2 : ℚ) ^ (Nat.log2 n : ℤ) ≤ n ∧ (n : ℚ) < 2 ^ ((Nat.log2 n : ℤ) + 1) := by
  constructor
  · have := Nat.log2_self_le hn.ne'
    rw [zpow_natCast]
    exact_mod_cast this
  · have := Nat.lt_log2_self (n := n)
    rw [← Nat.cast_succ, zpow_natCast]
    exact_mod_cast this

/-- The first digit is where `binaryMagnitude` says. -/
theorem binaryMagnitude_spec {above below : ℕ} (ha : 0 < above) (hb : 0 < below) :
    (2 : ℚ) ^ binaryMagnitude above below ≤ above / below ∧
      (above : ℚ) / below < 2 ^ (binaryMagnitude above below + 1) := by
  have hb' : (0 : ℚ) < below := by exact_mod_cast hb
  obtain ⟨lowA, highA⟩ := log2_bounds ha
  obtain ⟨lowB, highB⟩ := log2_bounds hb
  set guess : ℤ := (Nat.log2 above : ℤ) - Nat.log2 below with guess_def
  have least : (2 : ℚ) ^ (guess - 1) ≤ above / below := by
    rw [le_div_iff₀ hb']
    calc (2 : ℚ) ^ (guess - 1) * below
        ≤ 2 ^ (guess - 1) * 2 ^ ((Nat.log2 below : ℤ) + 1) := by gcongr
      _ = 2 ^ (Nat.log2 above : ℤ) := by
          rw [← zpow_add₀ two_ne_zero, guess_def]
          congr 1
          ring
      _ ≤ above := lowA
  have most : (above : ℚ) / below < 2 ^ (guess + 1) := by
    rw [div_lt_iff₀ hb']
    calc (above : ℚ) < 2 ^ ((Nat.log2 above : ℤ) + 1) := highA
      _ = 2 ^ (guess + 1) * 2 ^ (Nat.log2 below : ℤ) := by
          rw [← zpow_add₀ two_ne_zero, guess_def]
          congr 1
          ring
      _ ≤ 2 ^ (guess + 1) * below := by gcongr
  have fits : below * (powerOfTwo guess).1 ≤ above * (powerOfTwo guess).2 ↔
      (2 : ℚ) ^ guess ≤ above / below := by
    have down : (0 : ℚ) < (powerOfTwo guess).2 := by exact_mod_cast (powerOfTwo_pos guess).2
    rw [← powerOfTwo_div, div_le_div_iff₀ down hb', mul_comm below]
    exact_mod_cast Iff.rfl
  unfold binaryMagnitude
  simp only [← guess_def]
  split
  · next h => exact ⟨fits.mp h, most⟩
  · next h =>
    rw [fits, not_le] at h
    exact ⟨least, by simpa using h⟩

/-- No other place will do. -/
theorem binaryMagnitude_eq {above below : ℕ} (ha : 0 < above) (hb : 0 < below) {m : ℤ}
    (low : (2 : ℚ) ^ m ≤ above / below) (high : (above : ℚ) / below < 2 ^ (m + 1)) :
    binaryMagnitude above below = m := by
  obtain ⟨low', high'⟩ := binaryMagnitude_spec ha hb
  have one : (1 : ℚ) < 2 := one_lt_two
  have := (zpow_lt_zpow_iff_right₀ one).mp (low.trans_lt high')
  have := (zpow_lt_zpow_iff_right₀ one).mp (low'.trans_lt high)
  omega

/-! ## 4. What is rounded to a number -/

/-- A fraction lies in an interval, with the ends if the interval has them. -/
def Interval.Holds (i : Interval) (q : ℚ) : Prop :=
  let unit : ℚ := i.above / i.below
  if i.closed then i.low * unit ≤ q ∧ q ≤ i.high * unit
  else i.low * unit < q ∧ q < i.high * unit

/-- The parts of a floating-point number of sixty-four bits that is finite and not zero. -/
structure Binary.Fits (b : Binary) : Prop where
  positive : 0 < b.significand
  short : b.significand < 2 ^ 53
  least : leastExponent ≤ b.exponent
  most : b.exponent ≤ 971
  /-- Only the least exponent goes with a significand that has not all of its digits. -/
  full : leastExponent < b.exponent → 2 ^ 52 ≤ b.significand
  narrow : b.narrowBelow = true ↔ b.significand = 2 ^ 52 ∧ leastExponent < b.exponent

/-- The bits of a number that is not negative. -/
def Binary.bits (b : Binary) : ℕ :=
  (b.exponent - leastExponent).toNat * Nat.pow 2 52 + b.significand

/-- The way down to the lower end of the interval, in units of the significand. -/
def Binary.reach (b : Binary) : ℚ := if b.narrowBelow then 1 / 4 else 1 / 2

theorem Binary.reach_le (b : Binary) : b.reach ≤ 1 / 2 := by
  unfold Binary.reach
  split <;> norm_num

/-- What an interval says in units of the significand. -/
theorem Binary.Fits.holds_iff {b : Binary} (fits : b.Fits) (q : ℚ) :
    b.interval.Holds q ↔
      b.significand - b.reach ≤ q / 2 ^ b.exponent ∧ q / 2 ^ b.exponent ≤ b.significand + 1 / 2 ∧
        (b.significand - b.reach = q / 2 ^ b.exponent ∨
          q / 2 ^ b.exponent = b.significand + 1 / 2 → b.significand % 2 = 0) := by
  have unit : ((powerOfTwo (b.exponent - 2)).1 : ℚ) / (powerOfTwo (b.exponent - 2)).2 =
      2 ^ b.exponent / 4 := by
    rw [powerOfTwo_div, zpow_sub₀ two_ne_zero]
    norm_num
  have positive : (0 : ℚ) < 2 ^ b.exponent := by positivity
  have low : ((4 * b.significand - if b.narrowBelow then 1 else 2 : ℕ) : ℚ) =
      4 * (b.significand - b.reach) := by
    have := fits.positive
    unfold Binary.reach
    split
    · rw [Nat.cast_sub (by omega)]
      push_cast
      ring
    · rw [Nat.cast_sub (by omega)]
      push_cast
      ring
  obtain ⟨x, rfl⟩ : ∃ x, q = x * 2 ^ b.exponent := ⟨q / 2 ^ b.exponent, by field_simp⟩
  have lower : 4 * (b.significand - b.reach) * (2 ^ b.exponent / 4) =
      (b.significand - b.reach) * 2 ^ b.exponent := by ring
  have upper : (4 * (b.significand : ℚ) + 2) * (2 ^ b.exponent / 4) =
      (b.significand + 1 / 2) * 2 ^ b.exponent := by ring
  simp only [Interval.Holds, Binary.interval, unit, low, lower, decide_eq_true_eq, Nat.cast_add,
    Nat.cast_mul, Nat.cast_ofNat, upper, mul_div_cancel_right₀ x positive.ne',
    mul_le_mul_iff_left₀ positive, mul_lt_mul_iff_left₀ positive]
  by_cases even : b.significand % 2 = 0
  · simp [even]
  · simp only [even, if_false, imp_false, not_or]
    constructor
    · rintro ⟨h, h'⟩
      exact ⟨h.le, h'.le, h.ne, h'.ne⟩
    · rintro ⟨h, h', hne, hne'⟩
      exact ⟨lt_of_le_of_ne h hne, lt_of_le_of_ne h' hne'⟩

/-- The bits are below those of infinity. -/
theorem Binary.Fits.bits_lt {b : Binary} (fits : b.Fits) : b.bits < infinityBits := by
  have := fits.short
  have := fits.most
  simp only [Binary.bits, infinityBits, leastExponent, Nat.pow_eq]
  omega

/-- How a fraction is cut once the place of its first digit is known. -/
theorem nearestBits_of_exponent {above below : ℕ} (hb : 0 < below) {e : ℤ} {n : ℕ}
    (exponent : max leastExponent (binaryMagnitude above below - 52) = e)
    (low : (n : ℚ) - 1 / 2 ≤ above / below / 2 ^ e)
    (high : (above : ℚ) / below / 2 ^ e ≤ n + 1 / 2)
    (tie : (n : ℚ) - 1 / 2 = above / below / 2 ^ e ∨ (above : ℚ) / below / 2 ^ e = n + 1 / 2 →
      n % 2 = 0) :
    nearestBits above below =
      min infinityBits ((e - leastExponent).toNat * Nat.pow 2 52 + n) := by
  have scaled : ((above * (powerOfTwo e).2 : ℕ) : ℚ) / (below * (powerOfTwo e).1 : ℕ) =
      above / below / 2 ^ e := by
    rw [← powerOfTwo_div, Nat.cast_mul, Nat.cast_mul, div_div_eq_mul_div, mul_div_mul_comm,
      mul_div_assoc]
  have rounded : roundHalfEven (above * (powerOfTwo e).2) (below * (powerOfTwo e).1) = n := by
    apply roundHalfEven_eq (Nat.mul_pos hb (powerOfTwo_pos e).1) <;> rwa [scaled]
  simp only [nearestBits, exponent, rounded]

section

variable {b : Binary} (fits : b.Fits) {above below : ℕ} (hb : 0 < below)
  (holds : b.interval.Holds (above / below))

include fits holds

theorem Binary.Fits.above_pos : 0 < above := by
  have low := ((fits.holds_iff _).mp holds).1
  have reach := b.reach_le
  have positive : (1 : ℚ) ≤ b.significand := by exact_mod_cast fits.positive
  by_contra! h
  rw [Nat.le_zero.mp h] at low
  norm_num at low
  linarith

include hb

/-- The fraction does not start left of the number's first place. -/
theorem Binary.Fits.binaryMagnitude_le : binaryMagnitude above below ≤ b.exponent + 52 := by
  have first := (binaryMagnitude_spec (fits.above_pos holds) hb).1
  have high := ((fits.holds_iff _).mp holds).2.1
  have short : (b.significand : ℚ) + 1 ≤ 2 ^ 53 := by exact_mod_cast fits.short
  have unit : (0 : ℚ) < 2 ^ b.exponent := by positivity
  have top : (above : ℚ) / below < 2 ^ (b.exponent + 53) := by
    rw [zpow_add₀ two_ne_zero, ← div_lt_iff₀' unit]
    norm_num at short ⊢
    linarith
  have := (zpow_lt_zpow_iff_right₀ (one_lt_two (α := ℚ))).mp (first.trans_lt top)
  omega

/-- In the binade of the number, the fraction is cut where the number ends. -/
theorem Binary.Fits.nearestBits_of_binade
    (binade : b.exponent = leastExponent ∨ (2 : ℚ) ^ 52 ≤ above / below / 2 ^ b.exponent) :
    nearestBits above below = b.bits := by
  obtain ⟨low, high, tie⟩ := (fits.holds_iff _).mp holds
  have reach := b.reach_le
  have least := fits.least
  have most := fits.binaryMagnitude_le hb holds
  have place : max leastExponent (binaryMagnitude above below - 52) = b.exponent := by
    rcases binade with same | large
    · omega
    · have unit : (0 : ℚ) < 2 ^ b.exponent := by positivity
      have bottom : (2 : ℚ) ^ (b.exponent + 52) ≤ above / below := by
        rw [zpow_add₀ two_ne_zero, ← le_div_iff₀' unit]
        exact_mod_cast large
      have last := (binaryMagnitude_spec (fits.above_pos holds) hb).2
      have := (zpow_lt_zpow_iff_right₀ (one_lt_two (α := ℚ))).mp (bottom.trans_lt last)
      omega
  rw [nearestBits_of_exponent (n := b.significand) hb place (by linarith) high]
  · exact min_eq_right fits.bits_lt.le
  · rintro (even | even)
    · refine tie (.inl ?_)
      linarith
    · exact tie (.inr even)

/-- Below the number's binade the number is a power of two.  The fraction is cut one place further
right, and the significand is rounded up to one digit more. -/
theorem Binary.Fits.nearestBits_below_binade (higher : leastExponent < b.exponent)
    (small : (above : ℚ) / below / 2 ^ b.exponent < 2 ^ 52) :
    nearestBits above below = b.bits := by
  have low := ((fits.holds_iff _).mp holds).1
  have reach := b.reach_le
  have ha := fits.above_pos holds
  have unit : (0 : ℚ) < 2 ^ b.exponent := by positivity
  have same : b.significand = 2 ^ 52 := by
    by_contra other
    have : (2 : ℚ) ^ 52 + 1 ≤ b.significand := by
      exact_mod_cast Nat.lt_of_le_of_ne (fits.full higher) (Ne.symm other)
    linarith
  have narrow : b.reach = 1 / 4 := if_pos (fits.narrow.mpr ⟨same, higher⟩)
  rw [same, narrow] at low
  norm_num at low small
  have place : binaryMagnitude above below = b.exponent + 51 := by
    apply binaryMagnitude_eq ha hb
    · rw [zpow_add₀ two_ne_zero, ← le_div_iff₀' unit]
      norm_num
      linarith
    · rw [show b.exponent + 51 + 1 = b.exponent + 52 by ring, zpow_add₀ two_ne_zero,
        ← div_lt_iff₀' unit]
      norm_num
      linarith
  have half : (above : ℚ) / below / 2 ^ (b.exponent - 1) =
      above / below / 2 ^ b.exponent * 2 := by
    rw [zpow_sub_one₀ two_ne_zero]
    field_simp
  rw [nearestBits_of_exponent (e := b.exponent - 1) (n := 2 ^ 53) hb (by omega)]
  · have := fits.most
    simp only [Binary.bits, same, infinityBits, leastExponent, Nat.pow_eq] at *
    omega
  · rw [half]
    norm_num
    linarith
  · rw [half]
    norm_num
    linarith
  · exact fun _ => rfl

/-- **Every fraction in the interval of a number is rounded to it.** -/
theorem Binary.Fits.nearestBits_eq : nearestBits above below = b.bits := by
  rcases fits.least.eq_or_lt with same | higher
  · exact fits.nearestBits_of_binade hb holds (.inl same.symm)
  · rcases le_or_gt ((2 : ℚ) ^ 52) (above / below / 2 ^ b.exponent) with large | small
    · exact fits.nearestBits_of_binade hb holds (.inr large)
    · exact fits.nearestBits_below_binade hb holds higher small

end

end CodeDiagram.Number
