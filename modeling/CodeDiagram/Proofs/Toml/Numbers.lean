/-
# Numbers that were written are read

A number above zero is written as a numeral, perhaps with a point and digits behind it.  What starts
like that is neither a date nor a time of day nor a number in another base (`scalar_of_isNumeral`).
A whole number is read as itself (`scalar_naturalText`), and a floating-point number bit by bit
(`scalar_floatText`): its text is a decimal in its interval.
-/
import CodeDiagram.Proofs.Number.Digits
import CodeDiagram.Proofs.Number.Floats
import CodeDiagram.Toml.Printer
import CodeDiagram.Toml.Scalar

namespace CodeDiagram.Toml

open Number

/-! ## 1. Digits up to another character -/

/-- A digit is not a character that is none. -/
theorem ne_of_isDigit {c d : Char} (h : isDigit c = true) (h' : isDigit d = false) : c ≠ d := by
  rintro rfl
  simp [h'] at h

theorem moreDigits_append {ds : List Char} (digits : ∀ c ∈ ds, isDigit c = true) {e : Char}
    (other : isDigit e = false) (gap : e ≠ '_') (rest : List Char) :
    moreDigits isDigit (ds ++ e :: rest) = (ds, e :: rest) := by
  induction ds with
  | nil => simp [moreDigits, other, gap]
  | cons c ds ih =>
    have digit := digits c (by simp)
    have notGap : c ≠ '_' := ne_of_isDigit digit (by decide)
    simp [moreDigits, notGap, digit, ih fun d hd => digits d (by simp [hd])]

/-- All digits are taken. -/
theorem digits_append {ds : List Char} (some : ds ≠ []) (all : ∀ c ∈ ds, isDigit c = true)
    {e : Char} (other : isDigit e = false) (gap : e ≠ '_') (rest : List Char) :
    digits isDigit (ds ++ e :: rest) = .some (ds, e :: rest) := by
  cases ds with
  | nil => exact absurd rfl some
  | cons c ds =>
    have more := moreDigits_append (fun d hd => all d (List.mem_cons_of_mem c hd)) other gap rest
    simp [digits, all c (by simp), more]

section

variable {ds : List Char} (numeral : IsNumeral ds) {e : Char}

include numeral

/-- A numeral is taken as a whole. -/
theorem wholeDigits_append (other : isDigit e = false) (gap : e ≠ '_') (rest : List Char) :
    wholeDigits (ds ++ e :: rest) = some (ds, e :: rest) := by
  by_cases zero : ds.head? = some '0'
  · rw [numeral.zero zero]
    rfl
  · have first : ∀ cs, ds ++ e :: rest ≠ '0' :: cs := by
      intro cs same
      have := congrArg List.head? same
      rw [List.head?_append_of_ne_nil _ numeral.ne_nil] at this
      exact zero this
    rw [wholeDigits, digits_append numeral.ne_nil numeral.digits other gap]
    exact first

/-! ## 2. What starts with digits -/

/-- What follows a number of digits is a digit or the character after all of them. -/
theorem any_fixedDigits_append (count : Nat) (other : isDigit e = false) {c : Char}
    (hc : isDigit c = false) (hce : e ≠ c) (rest : List Char) :
    ((fixedDigits count (ds ++ e :: rest)).any fun (_, rest) => (expect c rest).isSome) =
      false := by
  simp only [fixedDigits]
  rcases Nat.lt_or_ge ds.length count with short | enough
  · have fewer : ((ds ++ e :: rest).take count).all isDigit = false := by
      rw [List.all_eq_false]
      refine ⟨e, ?_, by simp [other]⟩
      rw [List.take_append, List.mem_append]
      obtain ⟨k, hk⟩ : ∃ k, count - ds.length = k + 1 := ⟨count - ds.length - 1, by omega⟩
      exact .inr (by simp [hk])
    simp [fewer]
  · rw [List.drop_append_of_le_length enough]
    have next : (expect c (ds.drop count ++ e :: rest)).isSome = false := by
      cases isCons : ds.drop count with
      | nil => simp [expect, hce]
      | cons d tail =>
        have digit : isDigit d = true :=
          numeral.digits d (List.mem_of_mem_drop (isCons ▸ List.mem_cons_self))
        simp [expect, ne_of_isDigit digit hc]
    split <;> simp [next]

/-- What starts with a numeral has no other base and is nothing special. -/
theorem number_of_isNumeral (base : e ≠ 'x' ∧ e ≠ 'o' ∧ e ≠ 'b') (rest : List Char) :
    number (ds ++ e :: rest) = decimalTail false (ds ++ e :: rest) := by
  obtain ⟨d, tail, rfl⟩ := List.exists_cons_of_ne_nil numeral.ne_nil
  have ne {c : Char} := ne_of_isDigit (d := c) (numeral.digits d List.mem_cons_self)
  have next {c : Char} {cs : List Char} (h : d :: (tail ++ e :: rest) = '0' :: c :: cs) :
      e = c := by
    obtain ⟨rfl, after⟩ := List.cons.inj h
    have alone := (List.cons.inj (numeral.zero rfl)).2
    rw [alone] at after
    exact (List.cons.inj after).1
  rw [List.cons_append, number.eq_def]
  split
  · next h => exact absurd (next h) base.1
  · next h => exact absurd (next h) base.2.1
  · next h => exact absurd (next h) base.2.2
  · simp [sign, specialTail, ne (c := '+') (by decide), ne (c := '-') (by decide),
      ne (c := 'i') (by decide), ne (c := 'n') (by decide)]

/-- **What starts with a numeral is a decimal number**, if a point or the end of the line comes
next. -/
theorem scalar_of_isNumeral (he : e = '.' ∨ e = '\n') (rest : List Char) :
    scalar (ds ++ e :: rest) = decimalTail false (ds ++ e :: rest) := by
  have other : isDigit e = false := by rcases he with rfl | rfl <;> decide
  have date : startsDate (ds ++ e :: rest) = false := by
    apply any_fixedDigits_append numeral 4 other (by decide)
    rcases he with rfl | rfl <;> decide
  have time : startsTime (ds ++ e :: rest) = false := by
    apply any_fixedDigits_append numeral 2 other (by decide)
    rcases he with rfl | rfl <;> decide
  have plain := number_of_isNumeral numeral (e := e) (by rcases he with rfl | rfl <;> decide) rest
  rw [← plain]
  obtain ⟨d, tail, rfl⟩ := List.exists_cons_of_ne_nil numeral.ne_nil
  have ne {c : Char} := ne_of_isDigit (d := c) (numeral.digits d List.mem_cons_self)
  rw [List.cons_append] at date time ⊢
  simp [scalar, date, time, ne (c := '"') (by decide), ne (c := '\'') (by decide),
    ne (c := 't') (by decide), ne (c := 'f') (by decide)]

end

/-! ## 3. Whole numbers -/

theorem integer_natCast {n : ℕ} (h : n < integerBound) : integer? (n : ℤ) = some (n : ℤ) := by
  unfold integerBound at h
  unfold integer?
  generalize Nat.pow 2 63 = bound at h ⊢
  simp
  omega

theorem naturalText_eq_some_iff {n : ℕ} {text : String} :
    naturalText? n = some text ↔ n < integerBound ∧ toString n = text := by
  unfold naturalText?
  generalize integerBound = bound
  split <;> simp [*]

theorem decimalTail_numeral {ds : List Char} (numeral : IsNumeral ds) (rest : List Char) :
    decimalTail false (ds ++ '\n' :: rest) =
      (integer? (ofDigits ds : ℤ)).map fun n => (.int n, '\n' :: rest) := by
  unfold decimalTail
  rw [wholeDigits_append numeral (by decide) (by decide), Option.bind_eq_bind, Option.bind_some]
  dsimp only
  rw [if_neg (by simp [isFraction]), if_neg Bool.false_ne_true]
  cases integer? (ofDigits ds : ℤ) <;> rfl

/-- **A number of sixty-three bits is read as it was written.** -/
theorem scalar_naturalText {n : ℕ} {text : String} (written : naturalText? n = some text)
    (rest : List Char) : scalar (text.toList ++ '\n' :: rest) = some (.int n, '\n' :: rest) := by
  obtain ⟨small, rfl⟩ := naturalText_eq_some_iff.mp written
  have numeral := isNumeral_toDigits n
  have value : ofDigits (Nat.toDigits 10 n) = n := Nat.ofDigitChars_ten_toDigits
  rw [toList_toString, scalar_of_isNumeral numeral (.inr rfl), decimalTail_numeral numeral, value,
    integer_natCast small]
  rfl

/-! ## 4. Floating-point numbers -/

/-- Digits around a point are read as the number nearest to what they stand for. -/
theorem scalar_pointed {ds es : List Char} (numeral : IsNumeral ds) (some : es ≠ [])
    (digits : ∀ c ∈ es, isDigit c = true) {x : Float} (finite : x.isFinite = true)
    (isNearest : nearest false (pointed ds es) = x) (rest : List Char) :
    scalar (ds ++ '.' :: (es ++ '\n' :: rest)) = .some (.float x, '\n' :: rest) := by
  have notInf := isInf_of_isFinite finite
  rw [scalar_of_isNumeral numeral (.inl rfl)]
  have fraction : places ('.' :: (es ++ '\n' :: rest)) = .some (es, '\n' :: rest) :=
    digits_append some digits (by decide) (by decide) rest
  simp only [pointed] at isNearest
  simp [decimalTail, wholeDigits_append numeral (e := '.') (by decide) (by decide), isFraction,
    fraction, exponent, isNearest, notInf]

theorem isWhole_of_digits {ds : List Char} (digits : ∀ c ∈ ds, isDigit c = true) :
    isWhole (String.ofList ds) = true := by
  simp only [isWhole, String.toList_ofList, List.all_eq_true]
  exact fun c hc => by simp [digits c hc]

/-- **A finite number above zero is read as it was written.** -/
theorem scalar_floatText {x : Float} (finite : x.isFinite = true) (positive : 0 < x)
    (rest : List Char) :
    scalar ((floatText x).toList ++ '\n' :: rest) = some (.float x, '\n' :: rest) := by
  obtain ⟨b, isParts, isPositive, fits, reads⟩ := exists_parts finite positive
  have nonzero : b.significand ≠ 0 := fits.positive.ne'
  have holds := fits.holds_shortest
  have digits := fits.digits_pos holds
  have plainText : plain x = b.shortest.positional := by
    simp [plain, isParts, isPositive, nonzero, signed]
  simp only [floatText, isParts, plainText]
  rcases Decimal.positional_spec digits with
    ⟨ds, text, numeral, value⟩ | ⟨ds, es, text, numeral, some, places, value⟩
  · rw [text, if_pos (isWhole_of_digits numeral.digits)]
    have isNearest := reads (pointed ds ['0']) (value ▸ holds)
    simpa using scalar_pointed numeral (by simp) (by simp [isDigit]) finite isNearest rest
  · have notWhole : isWhole (String.ofList (ds ++ '.' :: es)) = false := by
      simp [isWhole, isDigit]
    rw [text, notWhole]
    have isNearest := reads (pointed ds es) (value ▸ holds)
    simpa using scalar_pointed numeral some places finite isNearest rest

end CodeDiagram.Toml
