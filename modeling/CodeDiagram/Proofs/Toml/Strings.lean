/-
# Strings that were written are read

Every style of `StringStyle.ofText` is left by the reader with the string that it was entered with
(`string_quoted`).  The two styles with escapes hold any string; the two without hold those that the
style is chosen for.

Of the long styles, what is read depends on quotes that stand in a row: up to two of them stand for
themselves, also in front of the closing ones.  So the induction is on the text with the quotes
just before it in view (`multilineTail_escapeFrom`, `multilineLiteralTail_of_calm`).
-/
import CodeDiagram.Toml.Printer
import CodeDiagram.Toml.Scalar

namespace CodeDiagram.Toml

/-! ## 1. Characters -/

/-- What is no control stands for itself. -/
theorem isPlain_of_not_isControl {c : Char} (h : isControl c = false) (line : c ≠ '\n') :
    isPlain c = true := by
  simp only [isControl, Bool.or_eq_false_iff, Bool.and_eq_false_imp, beq_eq_false_iff_ne] at h
  by_cases tab : c = '\t'
  · simp [isPlain, tab]
  · have := h.1
    simp only [isPlain, Bool.or_eq_true, Bool.and_eq_true, decide_eq_true_eq]
    right
    refine ⟨Nat.not_lt.mp fun small => ?_, h.2⟩
    simp [line, tab] at this
    omega

/-- A control character is one of the first. -/
theorem toNat_lt_of_isControl {c : Char} (h : isControl c = true) : c.toNat < 128 := by
  simp only [isControl, Bool.or_eq_true, Bool.and_eq_true, decide_eq_true_eq, beq_iff_eq] at h
  omega

/-! ## 2. Escapes -/

/-- The number of a control character is read from its digits. -/
theorem coded_upperHexDigit : ∀ n < 128,
    coded? ['0', '0', upperHexDigit (n / 16), upperHexDigit n] = some (Char.ofNat n) := by
  decide +kernel

theorem coded_of_isControl {c : Char} (h : isControl c = true) :
    coded? ['0', '0', upperHexDigit (c.toNat / 16), upperHexDigit c.toNat] = some c := by
  rw [coded_upperHexDigit _ (toNat_lt_of_isControl h), Char.ofNat_toNat]

/-- Other characters than quotes and backslashes stand for themselves. -/
theorem basicTail_cons {c : Char} (h : c ≠ '"') (h' : c ≠ '\\') (rest : List Char) :
    basicTail (c :: rest) = if isPlain c then put c (basicTail rest) else none := by
  rw [basicTail.eq_def]
  split <;> simp_all

/-- Every escape is read as the character that it stands for. -/
theorem basicTail_escapeChar {c : Char} (h : c ≠ '"') (rest : List Char) :
    basicTail (escapeChar false c ++ rest) = put c (basicTail rest) := by
  unfold escapeChar
  split
  case h_7 line _ _ backslash =>
    split
    · next control => simp [basicTail, coded_of_isControl control]
    · next noControl =>
      have plain := isPlain_of_not_isControl (Bool.eq_false_iff.mpr noControl) line
      simp [basicTail_cons h backslash, plain]
  all_goals simp [basicTail, escaped?]

/-- What stands between short quotes is read up to the closing one. -/
theorem basicTail_escapeFrom (run : Nat) (cs rest : List Char) :
    basicTail (escapeFrom false run cs ++ '"' :: rest) = some (cs, rest) := by
  induction cs generalizing run with
  | nil => simp [escapeFrom, basicTail]
  | cons c cs ih =>
    by_cases quote : c = '"'
    · simp [escapeFrom, quote, basicTail, escaped?, ih, put]
    · simp [escapeFrom, quote, basicTail_escapeChar, ih, put]

/-! ## 3. Escapes over several lines -/

/-- An escape does not end a line. -/
theorem endsLine_escaped {c : Char} (h : (escaped? c).isSome) (rest : List Char) :
    endsLine (c :: rest) = false := by
  unfold escaped? at h
  split at h
  case h_8 => exact absurd h (by decide)
  all_goals simp [endsLine, skipBlank, isBlank, afterBreak?]

theorem multilineTail_cons {c : Char} (h : c ≠ '"') (h' : c ≠ '\\') (line : c ≠ '\n')
    (carriage : c ≠ '\r') (rest : List Char) :
    multilineTail false (c :: rest) =
      if isPlain c then put c (multilineTail false rest) else none := by
  rw [multilineTail.eq_def]
  split <;> simp_all

theorem multilineTail_escapeChar {c : Char} (h : c ≠ '"') (rest : List Char) :
    multilineTail false (escapeChar true c ++ rest) = put c (multilineTail false rest) := by
  unfold escapeChar
  split
  case h_7 line _ carriage backslash =>
    split
    · next control => simp [multilineTail, coded_of_isControl control]
    · next noControl =>
      have plain := isPlain_of_not_isControl (Bool.eq_false_iff.mpr noControl) line
      simp [multilineTail_cons h backslash line carriage, plain]
  all_goals simp [multilineTail, endsLine_escaped, escaped?]

/-- Up to two quotes stand for themselves in front of anything but a quote if one does that has no
two more behind it. -/
theorem quotes_append {tail : List Char → Option (List Char × List Char)} {quote : Char}
    (single : ∀ {cs}, (∀ rest, cs ≠ quote :: quote :: rest) →
      tail (quote :: cs) = put quote (tail cs))
    {run : Nat} (h : run ≤ 2) {c : Char} (hc : c ≠ quote) (cs : List Char) :
    tail (List.replicate run quote ++ c :: cs) =
      (tail (c :: cs)).map fun p => (List.replicate run quote ++ p.1, p.2) := by
  match run, h with
  | 0, _ => simp
  | 1, _ => simp [single, hc, put]
  | 2, _ =>
    simp only [List.replicate, List.cons_append, List.nil_append]
    rw [single (by simp [hc]), single (by simp [hc])]
    simp [put, Function.comp_def]

/-- A quote stands for itself if there are not two more behind it. -/
theorem multilineTail_quote {cs : List Char} (h : ∀ rest, cs ≠ '"' :: '"' :: rest) :
    multilineTail false ('"' :: cs) = put '"' (multilineTail false cs) := by
  simp [multilineTail, isPlain, h]

/-- An escaped character starts neither with a quote nor with a break, unless a line break stands
for itself. -/
theorem escapeChar_eq_cons (long : Bool) {c : Char} (h : c ≠ '"') :
    ∃ d ds, escapeChar long c = d :: ds ∧ d ≠ '"' ∧ d ≠ '\r' ∧ (d = '\n' → c = '\n') := by
  unfold escapeChar
  split
  · exact ⟨_, _, rfl, by decide⟩
  · exact ⟨_, _, rfl, by decide⟩
  · cases long <;> exact ⟨_, _, rfl, by decide⟩
  · exact ⟨_, _, rfl, by decide⟩
  · exact ⟨_, _, rfl, by decide⟩
  · exact ⟨_, _, rfl, by decide⟩
  · next carriage _ =>
    split
    · exact ⟨_, _, rfl, by simp⟩
    · exact ⟨c, [], rfl, h, carriage, id⟩

/-- **What stands between long quotes is read up to the closing ones**, with the quotes just before
it. -/
theorem multilineTail_escapeFrom {run : Nat} (h : run ≤ 2) (cs rest : List Char) :
    multilineTail false
        (List.replicate run '"' ++ (escapeFrom true run cs ++ '"' :: '"' :: '"' :: '\n' :: rest)) =
      some (List.replicate run '"' ++ cs, '\n' :: rest) := by
  induction cs generalizing run with
  | nil =>
    match run, h with
    | 0, _ => simp [escapeFrom, multilineTail]
    | 1, _ => simp [escapeFrom, multilineTail]
    | 2, _ => simp [escapeFrom, multilineTail]
  | cons c cs ih =>
    have afresh := ih (Nat.zero_le 2)
    rw [List.replicate_zero, List.nil_append, List.nil_append] at afresh
    by_cases quote : c = '"'
    · by_cases room : run < 2
      · have more (ds : List Char) :
            List.replicate run '"' ++ '"' :: ds = List.replicate (run + 1) '"' ++ ds := by
          simp [List.replicate_succ']
        simp [escapeFrom, quote, room, more, ih room]
      · -- a third quote is escaped
        have other : '\\' ≠ '"' := by decide
        simp [escapeFrom, quote, room, quotes_append multilineTail_quote h other,
          multilineTail, endsLine_escaped, escaped?, put, afresh]
    · obtain ⟨d, ds, isCons, other, -⟩ := escapeChar_eq_cons true quote
      have written (tail : List Char) : escapeFrom true run (c :: cs) ++ tail =
          d :: (ds ++ (escapeFrom true 0 cs ++ tail)) := by
        simp [escapeFrom, quote, isCons]
      rw [written, quotes_append multilineTail_quote h other, ← List.cons_append, ← isCons,
        multilineTail_escapeChar quote, afresh]
      rfl

/-! ## 4. Strings without escapes -/

/-- No more than so many quotes follow each other, of which `run` have gone before. -/
def Calm (quote : Char) (most : Nat) : Nat → List Char → Prop
  | _, [] => True
  | run, c :: cs =>
    if c = quote then run + 1 ≤ most ∧ Calm quote most (run + 1) cs else Calm quote most 0 cs

/-- The longest run is as long as one of its beginnings, at least. -/
theorem le_longestRun (quote : Char) (cs : List Char) (run longest : Nat) :
    longest ≤ (cs.foldl (fun (run, longest) c =>
      if c == quote then (run + 1, max longest (run + 1)) else (0, longest)) (run, longest)).2 := by
  induction cs generalizing run longest with
  | nil => exact Nat.le_refl _
  | cons c cs ih =>
    rw [List.foldl_cons]
    dsimp only
    split
    · exact Nat.le_trans (Nat.le_max_left _ _) (ih _ _)
    · exact ih _ _

theorem calm_of_foldl {quote : Char} {most : Nat} (cs : List Char) (run longest : Nat)
    (h : (cs.foldl (fun (run, longest) c =>
      if c == quote then (run + 1, max longest (run + 1)) else (0, longest)) (run, longest)).2 ≤
      most) : Calm quote most run cs := by
  induction cs generalizing run longest with
  | nil => trivial
  | cons c cs ih =>
    rw [List.foldl_cons] at h
    dsimp only at h
    unfold Calm
    split
    · next same =>
      rw [if_pos (beq_iff_eq.mpr same)] at h
      have longer := Nat.le_max_right longest (run + 1)
      exact ⟨Nat.le_trans longer (Nat.le_trans (le_longestRun quote cs _ _) h), ih _ _ h⟩
    · next other =>
      rw [if_neg (by simpa using other)] at h
      exact ih _ _ h

/-- A text whose longest run is short has short runs only. -/
theorem calm_of_longestRun {quote : Char} {most : Nat} {cs : List Char}
    (h : longestRun quote cs ≤ most) : Calm quote most 0 cs := calm_of_foldl cs 0 0 h

/-- Where no quotes may be, the first character is none. -/
theorem Calm.head_ne {quote c : Char} {cs : List Char} (calm : Calm quote 0 0 (c :: cs)) :
    c ≠ quote := by
  rintro rfl
  simp [Calm] at calm

/-- Without quotes in it, a text is read up to the quote. -/
theorem literalTail_of_calm {cs : List Char} (plain : ∀ c ∈ cs, isPlain c = true)
    (calm : Calm '\'' 0 0 cs) (rest : List Char) :
    literalTail (cs ++ '\'' :: rest) = some (cs, rest) := by
  induction cs with
  | nil => simp [literalTail]
  | cons c cs ih =>
    have other := calm.head_ne
    rw [Calm, if_neg other] at calm
    simp [literalTail, plain c (by simp), ih (fun d hd => plain d (by simp [hd])) calm, put]

/-- A quote stands for itself if there are not two more behind it. -/
theorem multilineLiteralTail_quote {cs : List Char} (h : ∀ rest, cs ≠ '\'' :: '\'' :: rest) :
    multilineLiteralTail ('\'' :: cs) = put '\'' (multilineLiteralTail cs) := by
  simp [multilineLiteralTail, isPlain, h]

/-- What may stand in a long string is no carriage return. -/
theorem ne_carriage {c : Char} (plain : c = '\n' ∨ isPlain c = true) : c ≠ '\r' := by
  rintro rfl
  simp [isPlain] at plain

theorem multilineLiteralTail_cons {c : Char} (h : c ≠ '\'')
    (plain : c = '\n' ∨ isPlain c = true) (rest : List Char) :
    multilineLiteralTail (c :: rest) = put c (multilineLiteralTail rest) := by
  have carriage := ne_carriage plain
  rw [multilineLiteralTail.eq_def]
  split <;> simp_all

/-- **With up to two quotes in a row, a long text is read up to the closing ones**, with the quotes
just before it. -/
theorem multilineLiteralTail_of_calm {run : Nat} (h : run ≤ 2) {cs : List Char}
    (plain : ∀ c ∈ cs, c = '\n' ∨ isPlain c = true) (calm : Calm '\'' 2 run cs) (rest : List Char) :
    multilineLiteralTail
        (List.replicate run '\'' ++ (cs ++ '\'' :: '\'' :: '\'' :: '\n' :: rest)) =
      some (List.replicate run '\'' ++ cs, '\n' :: rest) := by
  induction cs generalizing run with
  | nil =>
    match run, h with
    | 0, _ => simp [multilineLiteralTail]
    | 1, _ => simp [multilineLiteralTail]
    | 2, _ => simp [multilineLiteralTail]
  | cons c cs ih =>
    have plain' : ∀ d ∈ cs, d = '\n' ∨ isPlain d = true := fun d hd => plain d (by simp [hd])
    unfold Calm at calm
    split at calm
    · next quote =>
      have more (ds : List Char) :
          List.replicate run '\'' ++ '\'' :: ds = List.replicate (run + 1) '\'' ++ ds := by
        simp [List.replicate_succ']
      rw [quote, List.cons_append, more, more, ih calm.1 plain' calm.2]
    · next other =>
      have afresh := ih (Nat.zero_le 2) plain' calm
      rw [List.replicate_zero, List.nil_append, List.nil_append] at afresh
      rw [List.cons_append, quotes_append multilineLiteralTail_quote h other,
        multilineLiteralTail_cons other (plain c (by simp)), afresh]
      rfl

/-! ## 5. Strings of any style -/

/-- What stands before a long string leaves the string as it is: a break is written if the string
starts with one, which would be lost without it. -/
theorem dropBreak_opened {cs : List Char} {c : Char} (line : c = '\n' → '\n' ∈ cs)
    (carriage : c ≠ '\r') (body : List Char) :
    dropBreak ((if cs.contains '\n' then ['\n'] else []) ++ c :: body) = c :: body := by
  split
  · rfl
  · next single =>
    have other : c ≠ '\n' := fun same => single (by simpa using line same)
    simp [dropBreak, afterBreak?, other, carriage]

/-- A string with escapes starts like its first character, and with no quote where that would be a
closing one. -/
theorem escapeFrom_eq_cons (long : Bool) (c : Char) (cs : List Char) :
    ∃ d ds, escapeFrom long 0 (c :: cs) = d :: ds ∧ d ≠ '\r' ∧ (d = '\n' → c = '\n') ∧
      (long = false → d ≠ '"') := by
  by_cases quote : c = '"'
  · subst quote
    cases long <;> exact ⟨_, _, rfl, by decide⟩
  · obtain ⟨d, ds, isCons, other, carriage, line⟩ := escapeChar_eq_cons long quote
    exact ⟨d, ds ++ escapeFrom long 0 cs, by simp [escapeFrom, quote, isCons], carriage, line,
      fun _ => other⟩

theorem string_basic (cs rest : List Char) :
    string ('"' :: (escapeFrom false 0 cs ++ '"' :: '\n' :: rest)) = some (cs, '\n' :: rest) := by
  have short : ∀ ds, escapeFrom false 0 cs ++ '"' :: '\n' :: rest ≠ '"' :: '"' :: ds := by
    intro ds
    cases cs with
    | nil => simp [escapeFrom]
    | cons c cs =>
      obtain ⟨d, _, isCons, -, -, other⟩ := escapeFrom_eq_cons false c cs
      simp [isCons, other rfl]
  rw [string, basicTail_escapeFrom]
  exact short

theorem string_literal {cs : List Char} (plain : ∀ c ∈ cs, isPlain c = true)
    (calm : Calm '\'' 0 0 cs) (rest : List Char) :
    string ('\'' :: (cs ++ '\'' :: '\n' :: rest)) = some (cs, '\n' :: rest) := by
  have short : ∀ ds, cs ++ '\'' :: '\n' :: rest ≠ '\'' :: '\'' :: ds := by
    intro ds
    cases cs with
    | nil => simp
    | cons c cs => simp [calm.head_ne]
  rw [string, literalTail_of_calm plain calm]
  exact short

theorem string_longBasic (cs rest : List Char) :
    string ('"' :: '"' :: '"' :: ((if cs.contains '\n' then ['\n'] else []) ++
      (escapeFrom true 0 cs ++ '"' :: '"' :: '"' :: '\n' :: rest))) = some (cs, '\n' :: rest) := by
  have body := multilineTail_escapeFrom (Nat.zero_le 2) cs rest
  rw [List.replicate_zero, List.nil_append, List.nil_append] at body
  have kept : dropBreak ((if cs.contains '\n' then ['\n'] else []) ++
      (escapeFrom true 0 cs ++ '"' :: '"' :: '"' :: '\n' :: rest)) =
        escapeFrom true 0 cs ++ '"' :: '"' :: '"' :: '\n' :: rest := by
    cases cs with
    | nil => exact dropBreak_opened (by decide) (by decide) _
    | cons c cs =>
      obtain ⟨d, _, isCons, carriage, line, -⟩ := escapeFrom_eq_cons true c cs
      rw [isCons]
      exact dropBreak_opened (fun same => by simp [line same]) carriage _
  simp only [string, kept, body]

theorem string_longLiteral {cs : List Char} (plain : ∀ c ∈ cs, c = '\n' ∨ isPlain c = true)
    (calm : Calm '\'' 2 0 cs) (rest : List Char) :
    string ('\'' :: '\'' :: '\'' :: ((if cs.contains '\n' then ['\n'] else []) ++
      (cs ++ '\'' :: '\'' :: '\'' :: '\n' :: rest))) = some (cs, '\n' :: rest) := by
  have body := multilineLiteralTail_of_calm (Nat.zero_le 2) plain calm rest
  rw [List.replicate_zero, List.nil_append, List.nil_append] at body
  have kept : dropBreak ((if cs.contains '\n' then ['\n'] else []) ++
      (cs ++ '\'' :: '\'' :: '\'' :: '\n' :: rest)) =
        cs ++ '\'' :: '\'' :: '\'' :: '\n' :: rest := by
    cases cs with
    | nil => exact dropBreak_opened (by decide) (by decide) _
    | cons c cs =>
      have carriage := ne_carriage (plain c (by simp))
      exact dropBreak_opened (fun same => by simp [same]) carriage _
  simp only [string, kept, body]

/-- What has no controls is plain but for its line breaks. -/
theorem plain_of_any {cs : List Char} (h : cs.any isControl = false) :
    ∀ c ∈ cs, c = '\n' ∨ isPlain c = true := by
  intro c hc
  by_cases line : c = '\n'
  · exact .inl line
  · rw [List.any_eq_false] at h
    exact .inr (isPlain_of_not_isControl (Bool.eq_false_iff.mpr (h c hc)) line)

/-- What a style without escapes is chosen for. -/
theorem ofText_spec (cs : List Char) :
    match StringStyle.ofText cs with
    | .literal => cs.any isControl = false ∧ cs.contains '\n' = false ∧ longestRun '\'' cs = 0
    | .longLiteral => cs.any isControl = false ∧ longestRun '\'' cs < 3
    | .basic | .longBasic => True := by
  fun_cases StringStyle.ofText cs <;> simp_all +zetaDelta

/-- **A string is read as it was written**, with the end of the line left. -/
theorem string_quoted (s : String) (rest : List Char) :
    string ((quoted s).toList ++ '\n' :: rest) = some (s.toList, '\n' :: rest) := by
  have chosen := ofText_spec s.toList
  simp only [quoted]
  generalize StringStyle.ofText s.toList = style at chosen ⊢
  cases style with
  | basic =>
    rw [← string_basic s.toList rest]
    simp [StringStyle.marks, StringStyle.body]
  | literal =>
    obtain ⟨controls, single, quotes⟩ := chosen
    have plain : ∀ c ∈ s.toList, isPlain c = true := fun c hc =>
      (plain_of_any controls c hc).resolve_left fun line => by simp [line ▸ hc] at single
    rw [← string_literal plain (calm_of_longestRun (Nat.le_of_eq quotes)) rest]
    simp [StringStyle.marks, StringStyle.body]
  | longBasic =>
    rw [← string_longBasic s.toList rest]
    split <;> simp_all [StringStyle.marks, StringStyle.body]
  | longLiteral =>
    obtain ⟨controls, quotes⟩ := chosen
    rw [← string_longLiteral (plain_of_any controls)
      (calm_of_longestRun (Nat.le_of_lt_succ quotes)) rest]
    split <;> simp_all [StringStyle.marks, StringStyle.body]

/-- What is read as a string is a scalar. -/
theorem scalar_of_string {cs text rest : List Char} (h : string cs = some (text, rest)) :
    scalar cs = some (.str (String.ofList text), rest) := by
  have opened := h
  rw [string.eq_def] at opened
  split at opened
  · simp [scalar, h]
  · simp [scalar, h]
  · simp [scalar, h]
  · simp [scalar, h]
  · cases opened

/-- **A string is a scalar that is read as it was written.** -/
theorem scalar_quoted (s : String) (rest : List Char) :
    scalar ((quoted s).toList ++ '\n' :: rest) = some (.str s, '\n' :: rest) := by
  rw [scalar_of_string (string_quoted s rest), String.ofList_toList]

end CodeDiagram.Toml
