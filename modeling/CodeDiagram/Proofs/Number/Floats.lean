/-
# Floating-point numbers above zero

A finite floating-point number above zero is known by its bits: they lie above zero and below those
of infinity (`toBits_bounds`), and `partsOfBits` takes every such word apart into parts that fit
together to it again (`exists_partsOfBits`).  So a decimal in the number's interval reads as the
number itself, bit by bit (`exists_parts`).
-/
import CodeDiagram.Proofs.Number.Shortest
import Mathlib

namespace CodeDiagram.Number

open Float.Model (UnpackedFloat)
open Float.Model.UnpackedFloat (unpackMantissa unpackExponent unpackSign)

/-! ## 1. The fields of a word -/

/-- The format of sixty-four bits. -/
abbrev format : Float.Model.Format := .binary64

theorem toNat_unpackMantissa (w : BitVec format.numBits) :
    (unpackMantissa w).toNat = w.toNat % 2 ^ 52 := by
  simp [unpackMantissa]

theorem toNat_unpackExponent (w : BitVec format.numBits) :
    (unpackExponent w).toNat = w.toNat / 2 ^ 52 % 2 ^ 11 := by
  simp [unpackExponent, Nat.shiftRight_eq_div_pow]

theorem toNat_unpackSign (w : BitVec format.numBits) :
    (unpackSign w).toNat = w.toNat / 2 ^ 63 % 2 := by
  simp [unpackSign, Nat.shiftRight_eq_div_pow]

/-- Whether a word is negative is told by its first bit. -/
theorem lt_of_unpackSign {w : BitVec format.numBits}
    (h : Float.Model.UnpackedFloat.Sign.ofBitVec (unpackSign w) = .positive) :
    w.toNat < 2 ^ 63 := by
  have sign := toNat_unpackSign w
  have zero : unpackSign w = 0#1 := by
    by_contra other
    rw [Float.Model.UnpackedFloat.Sign.ofBitVec, if_neg other] at h
    cases h
  rw [zero, BitVec.toNat_zero] at sign
  have := w.isLt
  simp only [Float.Model.Format.numBits] at this
  omega

/-- A word that is unpacked to a positive number is above zero and below infinity. -/
theorem bounds_of_unpack {w : BitVec format.numBits} {m : ℕ} {e : ℤ} {h : 0 < m}
    (unpacked : UnpackedFloat.unpack format w = .finite .positive m e h) :
    0 < w.toNat ∧ w.toNat < infinityBits := by
  have mantissa := toNat_unpackMantissa w
  have exponent := toNat_unpackExponent w
  simp only [UnpackedFloat.unpack] at unpacked
  split at unpacked
  · split at unpacked <;> cases unpacked
  · next notFull =>
    have below : w.toNat / 2 ^ 52 % 2 ^ 11 ≠ 2047 := fun full =>
      notFull (BitVec.eq_of_toNat_eq (exponent.trans full))
    split at unpacked
    · next zero =>
      split at unpacked
      · cases unpacked
      · next some =>
        have above : w.toNat % 2 ^ 52 ≠ 0 := fun none =>
          some (BitVec.eq_of_toNat_eq (mantissa.trans none))
        injection unpacked with isSign
        have := lt_of_unpackSign isSign
        simp only [infinityBits, Nat.pow_eq]
        omega
    · next some =>
      have above : w.toNat / 2 ^ 52 % 2 ^ 11 ≠ 0 := fun none =>
        some (BitVec.eq_of_toNat_eq (exponent.trans none))
      injection unpacked with isSign
      have := lt_of_unpackSign isSign
      simp only [infinityBits, Nat.pow_eq]
      omega

/-- Zero without its bits. -/
theorem unpack_zero : (0 : Float).toModel.unpack = .zero .positive := by rfl

/-- A finite number above zero is unpacked to parts with a positive sign. -/
theorem exists_unpack {x : Float} (finite : x.isFinite = true) (positive : 0 < x) :
    ∃ m e h, x.toModel.unpack = .finite .positive m e h := by
  have isFinite : x.toModel.unpack.isFinite = true := finite
  have isLess : ((0 : Float).toModel.unpack.compare x.toModel.unpack == some .lt) = true := by
    have : Float.Model.lt (0 : Float).toModel x.toModel = true := of_decide_eq_true positive
    exact this
  rw [unpack_zero] at isLess
  generalize x.toModel.unpack = u at isFinite isLess ⊢
  match u with
  | .finite .positive m e h => exact ⟨m, e, h, rfl⟩
  | .finite .negative .. => simp [UnpackedFloat.compare] at isLess
  | .zero _ => simp [UnpackedFloat.compare] at isLess
  | .infinity _ => simp [UnpackedFloat.isFinite] at isFinite
  | .notANumber => simp [UnpackedFloat.isFinite] at isFinite

/-- What is finite is not infinite. -/
theorem isInf_of_isFinite {x : Float} (finite : x.isFinite = true) : x.isInf = false := by
  have isFinite : x.toModel.unpack.isFinite = true := finite
  change x.toModel.unpack.isInf = false
  generalize x.toModel.unpack = u at isFinite ⊢
  cases u with
  | infinity => simp [UnpackedFloat.isFinite] at isFinite
  | notANumber => rfl
  | zero => rfl
  | finite => rfl

/-- The bits of a finite number above zero are above zero and below those of infinity. -/
theorem toBits_bounds {x : Float} (finite : x.isFinite = true) (positive : 0 < x) :
    0 < x.toBits.toNat ∧ x.toBits.toNat < infinityBits := by
  obtain ⟨m, e, h, unpacked⟩ := exists_unpack finite positive
  exact bounds_of_unpack (w := x.toBits.toBitVec) unpacked

/-! ## 2. The parts of a word -/

/-- A word above zero and below infinity is taken apart into parts that make it up. -/
theorem exists_partsOfBits {bits : UInt64} (positive : 0 < bits.toNat)
    (finite : bits.toNat < infinityBits) :
    ∃ b : Binary, partsOfBits bits = .finite b ∧ b.negative = false ∧ b.Fits ∧
      b.bits = bits.toNat := by
  simp only [infinityBits, Nat.pow_eq] at finite
  have sign : ¬bits.toNat ≥ 2 ^ 63 := by omega
  have power : ¬bits.toNat / 2 ^ 52 % 2 ^ 11 = 2047 := by omega
  simp only [partsOfBits, Nat.pow_eq, if_neg power]
  split
  · next zero =>
    refine ⟨_, rfl, by simpa using sign, ⟨?_, ?_, ?_, ?_, ?_, ?_⟩, ?_⟩ <;>
      simp only [leastExponent, Binary.bits, Nat.pow_eq, Bool.false_eq_true, false_iff] <;> omega
  · next nonzero =>
    refine ⟨_, rfl, by simpa using sign, ⟨?_, ?_, ?_, ?_, ?_, ?_⟩, ?_⟩ <;>
      simp only [leastExponent, Binary.bits, Nat.pow_eq, Bool.and_eq_true, decide_eq_true_eq] <;>
      omega

/-! ## 3. The way back -/

/-- **A finite number above zero has parts that fit together, and every decimal in their interval is
read as the number.** -/
theorem exists_parts {x : Float} (finite : x.isFinite = true) (positive : 0 < x) :
    ∃ b : Binary, parts x = .finite b ∧ b.negative = false ∧ b.Fits ∧
      ∀ d : Decimal, b.interval.Holds d.value → nearest false d = x := by
  obtain ⟨low, high⟩ := toBits_bounds finite positive
  obtain ⟨b, isParts, positive, fits, bits⟩ := exists_partsOfBits low high
  refine ⟨b, isParts, positive, fits, fun d holds => ?_⟩
  rw [nearest, fits.nearestBits_of_holds holds, bits]
  simp

end CodeDiagram.Number
