/-
# The ends of lines

A text is read from left to right as ends of lines and the characters between them.  A line is ended
by a pair of a return and a line feed, or by one of the two alone, and of what could be read the
longest is (`Reads`).  There is one such reading of every text (`existsUnique_reads`), and a text is
normalized by writing each end of a line in it as one line feed (`normalize_isNormalized`).

`normalize` goes over the text twice, first for the pairs and then for the returns that are left.
What the second pass finds next to a line feed was no pair in the first, and it goes character by
character, so no end of a line is lost: of a return in front of a pair two line feeds are left.
-/
import CodeDiagram.FrontEnd.Registry
import CodeDiagram.Proofs.Text.Tolerance

namespace CodeDiagram.Text

/-! ## 1. Readings -/

/-- How the end of a line is written. -/
inductive Terminator where
  | pair
  | carriage
  | feed
deriving DecidableEq

/-- The characters of the end of a line. -/
def Terminator.written : Terminator → List Char
  | .pair => ['\r', '\n']
  | .carriage => ['\r']
  | .feed => ['\n']

/-- What is read at a place of a text. -/
inductive Token where
  | terminator (t : Terminator)
  | plain (c : Char)
deriving DecidableEq

/-- The one character that is left of a token. -/
def Token.uniform : Token → Char
  | .terminator _ => '\n'
  | .plain c => c

/-- Whether a token ends a line. -/
def Token.isTerminator : Token → Bool
  | .terminator _ => true
  | .plain _ => false

/-- Reading from left to right: at each place the longest end of a line that stands there, and a
character only where none does. -/
inductive Reads : List Char → List Token → Prop where
  | nil : Reads [] []
  | terminator {t : Terminator} {rest : List Char} {ts : List Token}
      (longest : ∀ u : Terminator, u.written <+: t.written ++ rest →
        u.written.length ≤ t.written.length)
      (behind : Reads rest ts) : Reads (t.written ++ rest) (.terminator t :: ts)
  | plain {c : Char} {rest : List Char} {ts : List Token}
      (none : ∀ u : Terminator, ¬ u.written <+: c :: rest)
      (behind : Reads rest ts) : Reads (c :: rest) (.plain c :: ts)

/-- The token of a character that does not start a pair. -/
def Token.ofChar (c : Char) : Token :=
  if c = '\r' then .terminator .carriage else if c = '\n' then .terminator .feed else .plain c

/-- What a text is read as. -/
def tokens : List Char → List Token
  | '\r' :: '\n' :: rest => .terminator .pair :: tokens rest
  | c :: rest => .ofChar c :: tokens rest
  | [] => []

/-- A character that does not start a pair is read alone. -/
theorem tokens_cons {c : Char} {cs : List Char} (h : c = '\r' → cs.head? ≠ some '\n') :
    tokens (c :: cs) = .ofChar c :: tokens cs := by
  rw [tokens]
  rintro rest rfl rfl
  exact h rfl rfl

/-- Where no end of a line stands, there is another character. -/
theorem not_prefix_iff {c : Char} {rest : List Char} :
    (∀ u : Terminator, ¬ u.written <+: c :: rest) ↔ c ≠ '\r' ∧ c ≠ '\n' := by
  constructor
  · intro h
    refine ⟨?_, ?_⟩
    · rintro rfl
      exact h .carriage (List.prefix_append ['\r'] rest)
    · rintro rfl
      exact h .feed (List.prefix_append ['\n'] rest)
  · rintro ⟨hreturn, hfeed⟩ u hu
    cases u with
    | pair => exact hreturn (List.cons_prefix_cons.mp hu).1.symm
    | carriage => exact hreturn (List.cons_prefix_cons.mp hu).1.symm
    | feed => exact hfeed (List.cons_prefix_cons.mp hu).1.symm

/-- A return is read alone exactly if no line feed follows. -/
theorem longest_carriage_iff {rest : List Char} :
    (∀ u : Terminator, u.written <+: Terminator.carriage.written ++ rest →
      u.written.length ≤ Terminator.carriage.written.length) ↔ rest.head? ≠ some '\n' := by
  constructor
  · intro h hhead
    obtain ⟨tail, rfl⟩ := List.head?_eq_some_iff.mp hhead
    have hpair := h .pair (List.prefix_append ['\r', '\n'] tail)
    exact absurd hpair (by decide)
  · intro h u hu
    cases u with
    | pair =>
      obtain ⟨tail, htail⟩ := hu
      have hrest : '\n' :: tail = rest := (List.cons.inj htail).2
      exact absurd (by rw [← hrest]; rfl) h
    | carriage => exact Nat.le_refl _
    | feed => exact Nat.le_refl _

/-- A line feed is never the start of something longer. -/
theorem longest_feed (rest : List Char) (u : Terminator)
    (h : u.written <+: Terminator.feed.written ++ rest) :
    u.written.length ≤ Terminator.feed.written.length := by
  cases u with
  | pair => exact absurd (List.cons_prefix_cons.mp h).1 (by decide)
  | carriage => exact Nat.le_refl _
  | feed => exact Nat.le_refl _

theorem reads_tokens (cs : List Char) : Reads cs (tokens cs) := by
  induction cs using tokens.induct with
  | case1 rest ih =>
    refine .terminator (t := .pair) (fun u _ => ?_) ih
    cases u <;> decide
  | case2 c rest hpair ih =>
    have halone := head?_ne_of_not_pair hpair
    rw [tokens_cons halone, Token.ofChar]
    split
    · rename_i hc
      subst hc
      exact .terminator (longest_carriage_iff.mpr (halone rfl)) ih
    · rename_i hreturn
      split
      · rename_i hfeed
        subst hfeed
        exact .terminator (longest_feed rest) ih
      · rename_i hfeed
        exact .plain (not_prefix_iff.mpr ⟨hreturn, hfeed⟩) ih
  | case3 => exact .nil

theorem eq_tokens_of_reads {cs : List Char} {ts : List Token} (h : Reads cs ts) :
    ts = tokens cs := by
  induction h with
  | nil => rfl
  | @terminator t rest ts longest _ ih =>
    rw [ih]
    cases t with
    | pair => rfl
    | carriage =>
      have hcons : tokens ('\r' :: rest) = .ofChar '\r' :: tokens rest :=
        tokens_cons fun _ => longest_carriage_iff.mp longest
      exact hcons.symm
    | feed =>
      have hcons : tokens ('\n' :: rest) = .ofChar '\n' :: tokens rest :=
        tokens_cons fun hc => absurd hc (by decide)
      exact hcons.symm
  | @plain c rest ts none _ ih =>
    obtain ⟨hreturn, hfeed⟩ := not_prefix_iff.mp none
    rw [ih, tokens_cons fun hc => absurd hc hreturn, Token.ofChar, if_neg hreturn, if_neg hfeed]

/-- **There is one reading** of every text. -/
theorem existsUnique_reads (cs : List Char) : ∃! ts, Reads cs ts :=
  ⟨tokens cs, reads_tokens cs, fun _ h => eq_tokens_of_reads h⟩

/-! ## 2. What is left of a reading -/

theorem uniform_ofChar (c : Char) : (Token.ofChar c).uniform = breakAtReturn c := by
  unfold Token.ofChar breakAtReturn
  by_cases hreturn : c = '\r'
  · simp [hreturn, Token.uniform]
  · by_cases hfeed : c = '\n'
    · simp [hfeed, Token.uniform]
    · simp [hreturn, hfeed, Token.uniform]

/-- **Two passes do what one reading does.** -/
theorem uniform_eq_map_tokens (cs : List Char) : uniform cs = (tokens cs).map Token.uniform := by
  induction cs using tokens.induct with
  | case1 rest ih =>
    rw [uniform_pair, tokens, List.map_cons, ih]
    rfl
  | case2 c rest hpair ih =>
    have halone := head?_ne_of_not_pair hpair
    rw [uniform_cons halone, tokens_cons halone, List.map_cons, uniform_ofChar, ih]
  | case3 => rfl

/-- A plain token is none of the characters of a break. -/
theorem plain_of_reads {cs : List Char} {ts : List Token} (h : Reads cs ts) {c : Char}
    (hc : .plain c ∈ ts) : c ≠ '\r' ∧ c ≠ '\n' := by
  induction h with
  | nil => cases hc
  | terminator _ _ ih =>
    rcases List.mem_cons.mp hc with hc | hc
    · cases hc
    · exact ih hc
  | plain none _ ih =>
    rcases List.mem_cons.mp hc with hc | hc
    · cases hc
      exact not_prefix_iff.mp none
    · exact ih hc

/-- The line feeds that are left are the ends of lines. -/
theorem count_uniform (cs : List Char) :
    (uniform cs).count '\n' = (tokens cs).countP Token.isTerminator := by
  rw [uniform_eq_map_tokens, List.count_eq_countP, List.countP_map]
  refine List.countP_congr fun t ht => ?_
  cases t with
  | terminator u => simp [Token.uniform, Token.isTerminator]
  | plain c =>
    have hc := (plain_of_reads (reads_tokens cs) ht).2
    simp [Token.uniform, Token.isTerminator, hc]

theorem return_notMem_uniform (cs : List Char) : '\r' ∉ uniform cs := by
  rw [uniform_eq_map_tokens]
  intro hmem
  obtain ⟨t, ht, hreturn⟩ := List.mem_map.mp hmem
  cases t with
  | terminator u => cases hreturn
  | plain c => exact (plain_of_reads (reads_tokens cs) ht).1 hreturn

/-- A text without returns is uniform. -/
theorem uniform_eq_self {cs : List Char} (h : '\r' ∉ cs) : uniform cs = cs := by
  induction cs with
  | nil => rfl
  | cons c cs ih =>
    rw [List.mem_cons, not_or] at h
    obtain ⟨hc, hcs⟩ := h
    rw [uniform_cons fun heq => absurd heq.symm hc, ih hcs, breakAtReturn, if_neg (Ne.symm hc)]

/-- Byte order marks end no lines. -/
theorem countP_tokens_dropWhile (cs : List Char) :
    (tokens (cs.dropWhile (· == byteOrderMark))).countP Token.isTerminator =
      (tokens cs).countP Token.isTerminator := by
  induction cs with
  | nil => rfl
  | cons c cs ih =>
    rw [List.dropWhile_cons]
    split
    · rename_i hc
      have hmark : c = byteOrderMark := beq_iff_eq.mp hc
      have halone : c = '\r' → cs.head? ≠ some '\n' := fun heq =>
        absurd (hmark.symm.trans heq) (by decide)
      have hplain : (Token.ofChar c).isTerminator = false := by
        rw [hmark]
        decide
      rw [ih, tokens_cons halone, List.countP_cons_of_neg (by simp [hplain])]
    · rfl

/-! ## 3. Normalized texts -/

theorem toList_normalize (s : String) : (normalize s).toList = normalizeChars s.toList :=
  String.toList_ofList

theorem return_notMem_normalize (s : String) : '\r' ∉ (normalize s).toList := by
  rw [toList_normalize, normalizeChars_eq]
  exact return_notMem_uniform _

theorem head?_normalize_ne (s : String) : (normalize s).toList.head? ≠ some byteOrderMark := by
  have hmark := List.head?_dropWhile_not (· == byteOrderMark) s.toList
  rw [toList_normalize, normalizeChars_eq]
  cases hcs : s.toList.dropWhile (· == byteOrderMark) with
  | nil => exact nofun
  | cons c cs =>
    rw [hcs, List.head?_cons] at hmark
    obtain ⟨rest, hrest⟩ := exists_uniform_cons c cs
    rw [hrest, List.head?_cons, breakAtReturn]
    split
    · exact fun h => absurd (Option.some.inj h) (by decide)
    · intro h
      exact beq_eq_false_iff_ne.mp hmark (Option.some.inj h)

/-- A text without returns that starts with no byte order mark is normalized. -/
theorem normalize_eq_self {s : String} (hreturn : '\r' ∉ s.toList)
    (hmark : s.toList.head? ≠ some byteOrderMark) : normalize s = s := by
  have hdrop : s.toList.dropWhile (· == byteOrderMark) = s.toList := by
    cases hs : s.toList with
    | nil => rfl
    | cons c cs =>
      rw [hs, List.head?_cons] at hmark
      have hc : ¬ (c == byteOrderMark) = true := fun h => hmark (congrArg some (beq_iff_eq.mp h))
      rw [List.dropWhile_cons, if_neg hc]
  rw [normalize, normalizeChars_eq, hdrop, uniform_eq_self hreturn, String.ofList_toList]

theorem normalize_normalize (s : String) : normalize (normalize s) = normalize s :=
  normalize_eq_self (return_notMem_normalize s) (head?_normalize_ne s)

/-- A text is another one that starts with no byte order mark, with each end of a line as one line
feed. -/
structure IsNormalized (s t : String) : Prop where
  /-- Byte order marks in front are left out; then every token has one character. -/
  written : ∃ ts, Reads (s.toList.dropWhile (· == byteOrderMark)) ts ∧
    t.toList = ts.map Token.uniform
  noReturn : '\r' ∉ t.toList
  noMark : t.toList.head? ≠ some byteOrderMark
  breaks : ∀ ts, Reads s.toList ts → t.toList.count '\n' = ts.countP Token.isTerminator

/-- **A text is normalized by one reading**, in which each end of a line becomes one line feed.  A
normalized text is left as it is, and every front end makes the same of a text and of the normalized
one. -/
theorem normalize_isNormalized (s : String) :
    (∀ cs, ∃! ts, Reads cs ts) ∧ IsNormalized s (normalize s) ∧
      normalize (normalize s) = normalize s ∧
      ∀ (l : Language) (grammar : Syntax.Grammar),
        l.frontEnd.parse grammar (normalize s) = l.frontEnd.parse grammar s := by
  refine ⟨existsUnique_reads, ⟨⟨_, reads_tokens _, ?_⟩, return_notMem_normalize s,
    head?_normalize_ne s, ?_⟩, normalize_normalize s, ?_⟩
  · rw [toList_normalize, normalizeChars_eq, uniform_eq_map_tokens]
  · intro ts h
    rw [toList_normalize, normalizeChars_eq, count_uniform, countP_tokens_dropWhile,
      eq_tokens_of_reads h]
  · intro l grammar
    cases l with
    | python =>
      rw [Language.frontEnd_python, Python.frontEnd_parse, Python.parse, Python.parse,
        normalize_normalize]
    | java =>
      rw [Language.frontEnd_java, Java.frontEnd_parse, Java.parse, Java.parse,
        normalize_normalize]

/-- Two returns in front of a line feed are two ends of lines. -/
example : tokens "a\r\r\nb".toList =
    [.plain 'a', .terminator .carriage, .terminator .pair, .plain 'b'] := by decide

end CodeDiagram.Text
