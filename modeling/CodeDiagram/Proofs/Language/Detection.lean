/-
# The language of a text and its breaks

All that reads a text makes its breaks uniform first, but a language is told by the text as it came.
For seven of the eight typical constructs that is the same (`Pattern.occursIn_normalizeChars`).  The
eighth, names that are imported, asks for a blank behind `import` and for one character more, which
may be a blank as well: a pair of a return and a line feed is both.  The pair is one character when
breaks are uniform, and then no name is imported (`occursIn_importedNames_iff`).

So the verdict depends on how breaks are written exactly if it is a draw and such a pair is all that
is imported (`detect_normalize`).
-/
import CodeDiagram.Language.Detection
import CodeDiagram.Proofs.Text.Terminators
import Mathlib.Data.List.Perm.Basic

namespace CodeDiagram

open Text

/-! ## 1. Parts of a text -/

/-- A part that starts with something else is behind the leading byte order marks. -/
theorem Text.infix_dropWhile {m cs : List Char} (hm : m <:+: cs)
    (hhead : m.head? ≠ some byteOrderMark) : m <:+: cs.dropWhile (· == byteOrderMark) := by
  induction cs with
  | nil => exact hm
  | cons c cs ih =>
    rw [List.dropWhile_cons]
    split
    · rename_i hc
      rcases List.infix_cons_iff.mp hm with hm | hm
      · rcases List.prefix_cons_iff.mp hm with rfl | ⟨t, rfl, -⟩
        · exact List.nil_infix
        · exact absurd (congrArg some (beq_iff_eq.mp hc)) hhead
      · exact ih hm
    · exact hm

theorem Text.Pattern.matches_text_iff {s : String} {cs : List Char} :
    Matches (.text s) cs ↔ cs = s.toList := by
  rw [text]
  induction s.toList generalizing cs with
  | nil => exact matches_nothing_iff
  | cons c rest ih =>
    rw [List.foldr_cons, matches_seq_iff]
    constructor
    · rintro ⟨xs, ys, rfl, hone, hrest⟩
      obtain ⟨d, rfl, hd⟩ := matches_one_iff.mp hone
      rw [ih.mp hrest, beq_iff_eq.mp hd]
      rfl
    · rintro rfl
      exact ⟨[c], rest, rfl, .one (beq_self_eq_true c), ih.mpr rfl⟩

namespace Language

open Pattern (Matches)

/-! ## 2. Imported names -/

/-- The characters of a list of names. -/
def Construct.listed : CharClass := .either .word (.either .blank (.exactly ','))

open Construct in
/-- Names that are imported, the only construct that may end with a break. -/
def importedNames : Pattern := .inOrder [.text "import", space, .some listed]

/-- An import of a break that is written as a pair. -/
def importedPair : List Char := "import\r\n".toList

theorem importedNames_mem : importedNames ∈ pythonConstructs := by decide

/-- What is imported is a blank and at least one character of a list of names. -/
theorem matches_importedNames_iff {m : List Char} :
    Matches importedNames m ↔ ∃ c d rest, m = "import".toList ++ c :: d :: rest ∧
      isBlank c = true ∧ ∀ e ∈ d :: rest, Construct.listed.holds e = true := by
  have hshape : importedNames = .seq (.text "import")
    (.seq Construct.space (.seq (.some Construct.listed) .nothing)) := rfl
  rw [hshape, Pattern.matches_seq_iff]
  constructor
  · rintro ⟨word, rest, rfl, hword, hrest⟩
    obtain ⟨blanks, names, rfl, hblanks, hnames⟩ := Pattern.matches_seq_iff.mp hrest
    obtain ⟨names, none, rfl, hnames, hnone⟩ := Pattern.matches_seq_iff.mp hnames
    obtain ⟨hne, hblank⟩ := Pattern.matches_some_iff.mp hblanks
    obtain ⟨c, blanks, rfl⟩ := List.exists_cons_of_ne_nil hne
    obtain ⟨hc, hblank⟩ := List.forall_mem_cons.mp hblank
    obtain ⟨hne, hlisted⟩ := Pattern.matches_some_iff.mp hnames
    have hall : ∀ e ∈ blanks ++ names, Construct.listed.holds e = true := by
      intro e he
      rcases List.mem_append.mp he with he | he
      · have hblank : isBlank e = true := hblank e he
        simp [Construct.listed, CharClass.holds, hblank]
      · exact hlisted e he
    obtain ⟨d, tail, htail⟩ := List.exists_cons_of_ne_nil
      (List.append_ne_nil_of_right_ne_nil blanks hne)
    rw [Pattern.matches_nothing_iff.mp hnone, List.append_nil, Pattern.matches_text_iff.mp hword,
      List.cons_append, htail]
    exact ⟨c, d, tail, rfl, hc, htail ▸ hall⟩
  · rintro ⟨c, d, rest, rfl, hc, hall⟩
    refine ⟨_, _, rfl, Pattern.matches_text_iff.mpr rfl,
      Pattern.matches_seq_iff.mpr ⟨[c], d :: rest, rfl, ?_, ?_⟩⟩
    · exact Pattern.matches_some_iff.mpr ⟨by simp, List.forall_mem_singleton.mpr hc⟩
    · exact Pattern.matches_seq_iff.mpr ⟨d :: rest, [], by simp,
        Pattern.matches_some_iff.mpr ⟨by simp, hall⟩, .nothing⟩

/-- Two characters are left of two or more, unless these are a pair. -/
theorem exists_uniform_cons_cons {c d : Char} {rest : List Char}
    (h : c :: d :: rest ≠ ['\r', '\n']) (after : List Char) :
    ∃ e ∈ d :: rest, ∃ more,
      uniform (c :: d :: rest ++ after) = breakAtReturn c :: breakAtReturn e :: more := by
  by_cases hpair : c = '\r' ∧ d = '\n'
  · obtain ⟨rfl, rfl⟩ := hpair
    cases rest with
    | nil => exact absurd rfl h
    | cons e rest =>
      obtain ⟨more, hmore⟩ := exists_uniform_cons e (rest ++ after)
      exact ⟨e, by simp, more, congrArg _ hmore⟩
  · obtain ⟨more, hmore⟩ := exists_uniform_cons d (rest ++ after)
    refine ⟨d, List.mem_cons_self, more, ?_⟩
    rw [List.cons_append, uniform_cons, List.cons_append, hmore]
    rintro rfl hd
    exact hpair ⟨rfl, Option.some.inj hd⟩

/-- **Names are still imported when breaks are uniform** exactly if something else than a pair was
imported before. -/
theorem occursIn_importedNames_iff {cs : List Char} :
    importedNames.occursIn (normalizeChars cs) = true ↔
      ∃ m, m <:+: cs ∧ Matches importedNames m ∧ m ≠ importedPair := by
  rw [Pattern.occursIn_iff, normalizeChars_eq]
  constructor
  · rintro ⟨m, hm, hmatch⟩
    obtain ⟨m', hm', hmatch', rfl⟩ := Pattern.exists_infix_of_uniform (by decide) hm hmatch
    refine ⟨m', hm'.trans (List.dropWhile_suffix _).isInfix, hmatch', ?_⟩
    -- one break is left of the pair, and nothing is imported behind it
    rintro rfl
    have hnone : importedNames.occursIn (uniform importedPair) = false := by decide +kernel
    rw [Pattern.occursIn_iff.mpr ⟨_, List.infix_refl _, hmatch⟩] at hnone
    cases hnone
  · rintro ⟨m, hm, hmatch, hne⟩
    obtain ⟨c, d, rest, rfl, hblank, hlisted⟩ := matches_importedNames_iff.mp hmatch
    obtain ⟨before, after, hcs⟩ := infix_dropWhile hm (by simp [byteOrderMark])
    have hpair : c :: d :: rest ≠ ['\r', '\n'] := by
      intro heq
      rw [heq] at hne
      exact hne rfl
    obtain ⟨e, he, more, hmore⟩ := exists_uniform_cons_cons hpair after
    -- no pair is cut in front of the word or behind it
    have hword : uniform ("import".toList ++ (c :: d :: rest ++ after)) =
        "import".toList ++ breakAtReturn c :: breakAtReturn e :: more := by
      rw [uniform_append (fun hlast => absurd hlast (by decide)), hmore]
      rfl
    have hall : uniform (cs.dropWhile (· == byteOrderMark)) =
        uniform before ++ ("import".toList ++ breakAtReturn c :: breakAtReturn e :: more) := by
      rw [← hcs, List.append_assoc, List.append_assoc, uniform_append (fun _ => by simp), hword]
    refine ⟨"import".toList ++ [breakAtReturn c, breakAtReturn e], ⟨uniform before, more, ?_⟩,
      matches_importedNames_iff.mpr ⟨_, _, [], rfl, ?_, List.forall_mem_singleton.mpr ?_⟩⟩
    · rw [hall, List.append_assoc]
      rfl
    · exact (CharClass.holds_breakAtReturn (k := CharClass.blank) (by decide) c).trans hblank
    · rw [CharClass.holds_breakAtReturn (by decide)]
      exact hlisted e he

/-! ## 3. The verdict -/

/-- As many constructs of one language occur in a text as of the other. -/
def IsDraw (cs : List Char) : Prop :=
  score pythonConstructs cs = score javaConstructs cs

/-- A pair is all that a text imports. -/
structure ImportsPairOnly (cs : List Char) : Prop where
  occurs : importedPair <:+: cs
  only : ∀ m, m <:+: cs → Matches importedNames m → m = importedPair

/-- Constructs other than imported names are found however breaks are written. -/
theorem occursIn_normalizeChars_of_mem {p : Pattern} (hp : p ∈ pythonConstructs ++ javaConstructs)
    (hne : p ≠ importedNames) (cs : List Char) :
    p.occursIn (normalizeChars cs) = p.occursIn cs := by
  have htolerant : ∀ p ∈ pythonConstructs ++ javaConstructs, p ≠ importedNames →
      p.isTolerant = true := by decide +kernel
  exact Pattern.occursIn_normalizeChars (htolerant p hp hne) cs

theorem score_normalizeChars {constructs : List Pattern}
    (h : ∀ p ∈ constructs, p ∈ pythonConstructs ++ javaConstructs ∧ p ≠ importedNames)
    (cs : List Char) : score constructs (normalizeChars cs) = score constructs cs := by
  refine List.countP_congr fun p hp => ?_
  rw [occursIn_normalizeChars_of_mem (h p hp).1 (h p hp).2]

/-- The score of Python, with imported names counted apart. -/
theorem score_pythonConstructs (cs : List Char) : score pythonConstructs cs =
    score (pythonConstructs.erase importedNames) cs + (importedNames.occursIn cs).toNat := by
  rw [score, (List.perm_cons_erase importedNames_mem).countP_eq, List.countP_cons, score]
  cases importedNames.occursIn cs <;> rfl

/-- Making breaks uniform loses the imported names exactly if a pair is all that is imported. -/
theorem importsPairOnly_iff {cs : List Char} : ImportsPairOnly cs ↔
    importedNames.occursIn cs = true ∧ importedNames.occursIn (normalizeChars cs) = false := by
  have hkept : importedNames.occursIn (normalizeChars cs) = false ↔
      ∀ m, m <:+: cs → Matches importedNames m → m = importedPair := by
    rw [← Bool.not_eq_true, occursIn_importedNames_iff]
    constructor
    · intro h m hm hmatch
      by_contra hne
      exact h ⟨m, hm, hmatch, hne⟩
    · rintro h ⟨m, hm, hmatch, hne⟩
      exact hne (h m hm hmatch)
  rw [hkept]
  constructor
  · rintro ⟨hoccurs, honly⟩
    have hmatch : Matches importedNames importedPair :=
      matches_importedNames_iff.mpr
        ⟨'\r', '\n', [], rfl, by decide, List.forall_mem_singleton.mpr (by decide)⟩
    exact ⟨Pattern.occursIn_iff.mpr ⟨_, hoccurs, hmatch⟩, honly⟩
  · rintro ⟨hoccurs, honly⟩
    obtain ⟨m, hm, hmatch⟩ := Pattern.occursIn_iff.mp hoccurs
    exact ⟨honly m hm hmatch ▸ hm, honly⟩

/-- The scores of a text with uniform breaks: Python has one less if a pair is all that the text
imports, and nothing else changes. -/
theorem scores_normalizeChars (cs : List Char) :
    score javaConstructs (normalizeChars cs) = score javaConstructs cs ∧
      (ImportsPairOnly cs →
        score pythonConstructs cs = score pythonConstructs (normalizeChars cs) + 1) ∧
      (¬ ImportsPairOnly cs →
        score pythonConstructs (normalizeChars cs) = score pythonConstructs cs) := by
  have hjava : score javaConstructs (normalizeChars cs) = score javaConstructs cs :=
    score_normalizeChars (fun p hp => ⟨List.mem_append_right _ hp,
      fun hnames => absurd (hnames ▸ hp) (by decide)⟩) cs
  have hothers : score (pythonConstructs.erase importedNames) (normalizeChars cs) =
      score (pythonConstructs.erase importedNames) cs :=
    score_normalizeChars (fun p hp => ⟨List.mem_append_left _ (List.mem_of_mem_erase hp),
      fun hnames => absurd (hnames ▸ hp) (by decide)⟩) cs
  -- names that are imported when breaks are uniform were imported before
  have hkept : importedNames.occursIn (normalizeChars cs) = true →
      importedNames.occursIn cs = true := by
    intro h
    obtain ⟨m, hm, hmatch, -⟩ := occursIn_importedNames_iff.mp h
    exact Pattern.occursIn_iff.mpr ⟨m, hm, hmatch⟩
  refine ⟨hjava, fun h => ?_, fun h => ?_⟩
  · obtain ⟨hbefore, hafter⟩ := importsPairOnly_iff.mp h
    rw [score_pythonConstructs, score_pythonConstructs (normalizeChars cs), hothers, hbefore,
      hafter]
    rfl
  · rw [importsPairOnly_iff] at h
    rw [score_pythonConstructs, score_pythonConstructs cs, hothers]
    have hsame : importedNames.occursIn (normalizeChars cs) = importedNames.occursIn cs := by
      rw [Bool.eq_iff_iff]
      refine ⟨hkept, fun hbefore => ?_⟩
      by_contra hafter
      exact h ⟨hbefore, Bool.eq_false_iff.mpr hafter⟩
    rw [hsame]

/-- **The language that a text is given to does not depend on how its breaks are written**, unless
it is a draw and a pair of a return and a line feed is all that the text imports; then it does.
Byte order marks do not count, and every construct but imported names is found in both texts or in
neither. -/
theorem detect_normalize (s : String) :
    (∀ p ∈ pythonConstructs ++ javaConstructs, p ≠ importedNames →
      p.occursIn (normalize s).toList = p.occursIn s.toList) ∧
    (detect (normalize s) = detect s ↔ ¬ (IsDraw s.toList ∧ ImportsPairOnly s.toList)) ∧
    ((∀ name, resolve (normalize s) name = resolve s name) ↔
      ¬ (IsDraw s.toList ∧ ImportsPairOnly s.toList)) := by
  have hverdict : detect (normalize s) = detect s ↔
      ¬ (IsDraw s.toList ∧ ImportsPairOnly s.toList) := by
    obtain ⟨hjava, hlost, hsame⟩ := scores_normalizeChars s.toList
    rw [detect, detect, toList_normalize, IsDraw, hjava]
    by_cases hpair : ImportsPairOnly s.toList
    · rw [hlost hpair]
      split <;> split <;> simp [hpair] <;> omega
    · simp [hsame hpair, hpair]
  refine ⟨fun p hp hne => ?_, hverdict, ?_⟩
  · rw [toList_normalize, occursIn_normalizeChars_of_mem hp hne]
  · rw [← hverdict]
    constructor
    · intro h
      exact Except.ok.inj (h "auto")
    · intro h name
      rw [resolve, resolve, h]

/-- The pair behind `import` makes a draw of this text; with uniform breaks Java wins. -/
theorem detect_depends_on_breaks :
    normalize "private import\r\n" = "private import\n" ∧
      detect "private import\r\n" = .python ∧ detect "private import\n" = .java ∧
      detect "private import\r" = .java := by
  decide +kernel

end Language

end CodeDiagram
