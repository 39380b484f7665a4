/-
# Searching for patterns

`Pattern.occursIn` reads a text once and keeps all the patterns that are in progress.  It finds a
pattern exactly if some part of the text is described by it (`occursIn_iff`).

What is in progress after a character are the derivatives of what was before.  `matches_cons_iff`
says that they describe what is left of the texts that begin with it, and `endsIn_iff` follows the
reader through the text: something it has in progress describes a part from here on, or the pattern
describes a later part.
-/
import CodeDiagram.Text.Pattern
import Mathlib.Data.List.Infix

namespace CodeDiagram.Text.Pattern

/-! ## 1. What patterns describe -/

theorem matches_nothing_iff {cs : List Char} : Matches .nothing cs ↔ cs = [] := by
  constructor
  · rintro ⟨⟩
    rfl
  · rintro rfl
    exact .nothing

theorem matches_one_iff {k : CharClass} {cs : List Char} :
    Matches (.one k) cs ↔ ∃ c, cs = [c] ∧ k.holds c = true := by
  constructor
  · rintro ⟨⟩
    rename_i c hc
    exact ⟨c, rfl, hc⟩
  · rintro ⟨c, rfl, hc⟩
    exact .one hc

theorem matches_seq_iff {a b : Pattern} {cs : List Char} :
    Matches (.seq a b) cs ↔ ∃ xs ys, cs = xs ++ ys ∧ Matches a xs ∧ Matches b ys := by
  constructor
  · rintro ⟨⟩
    rename_i xs ys ha hb
    exact ⟨xs, ys, rfl, ha, hb⟩
  · rintro ⟨xs, ys, rfl, ha, hb⟩
    exact .seq ha hb

theorem matches_alt_iff {a b : Pattern} {cs : List Char} :
    Matches (.alt a b) cs ↔ Matches a cs ∨ Matches b cs := by
  constructor
  · rintro ⟨⟩
    · exact Or.inl ‹_›
    · exact Or.inr ‹_›
  · rintro (h | h)
    · exact .left h
    · exact .right h

/-- A text that is not empty starts with a repetition that is not. -/
theorem matches_many_cons_iff {a : Pattern} {c : Char} {cs : List Char} :
    Matches (.many a) (c :: cs) ↔
      ∃ xs ys, cs = xs ++ ys ∧ Matches a (c :: xs) ∧ Matches (.many a) ys := by
  constructor
  · intro h
    generalize hp : Pattern.many a = p at h
    generalize hds : c :: cs = ds at h
    induction h with
    | @more b xs ys ha hs _ ih =>
      obtain rfl := Pattern.many.inj hp
      cases xs with
      | nil => exact ih hp hds
      | cons x xs =>
        obtain ⟨rfl, rfl⟩ := List.cons.inj hds
        exact ⟨xs, ys, rfl, ha, hs⟩
    | stop => cases hds
    | nothing => cases hp
    | one => cases hp
    | seq => cases hp
    | left => cases hp
    | right => cases hp
  · rintro ⟨xs, ys, rfl, ha, hs⟩
    exact .more ha hs

/-- Any number of a class. -/
theorem matches_any_iff {k : CharClass} {cs : List Char} :
    Matches (.any k) cs ↔ ∀ c ∈ cs, k.holds c = true := by
  induction cs with
  | nil => exact iff_of_true .stop (by simp)
  | cons c cs ih =>
    rw [any, matches_many_cons_iff, List.forall_mem_cons, ← ih]
    constructor
    · rintro ⟨xs, ys, rfl, hone, hrest⟩
      obtain ⟨d, hd, hc⟩ := matches_one_iff.mp hone
      obtain ⟨rfl, rfl⟩ := List.cons.inj hd
      exact ⟨hc, hrest⟩
    · rintro ⟨hc, hrest⟩
      exact ⟨[], cs, rfl, .one hc, hrest⟩

/-- At least one of a class. -/
theorem matches_some_iff {k : CharClass} {cs : List Char} :
    Matches (.some k) cs ↔ cs ≠ [] ∧ ∀ c ∈ cs, k.holds c = true := by
  rw [some, matches_seq_iff]
  constructor
  · rintro ⟨xs, ys, rfl, hone, hrest⟩
    obtain ⟨c, rfl, hc⟩ := matches_one_iff.mp hone
    exact ⟨by simp, List.forall_mem_cons.mpr ⟨hc, matches_any_iff.mp hrest⟩⟩
  · rintro ⟨hne, hall⟩
    obtain ⟨c, cs, rfl⟩ := List.exists_cons_of_ne_nil hne
    obtain ⟨hc, hrest⟩ := List.forall_mem_cons.mp hall
    exact ⟨[c], cs, rfl, .one hc, matches_any_iff.mpr hrest⟩

/-! ## 2. Reading one character -/

theorem nullable_iff {p : Pattern} : p.nullable = true ↔ Matches p [] := by
  induction p with
  | nothing => exact iff_of_true rfl .nothing
  | one k => simp [nullable, matches_one_iff]
  | seq a b iha ihb =>
    rw [nullable, Bool.and_eq_true, iha, ihb, matches_seq_iff]
    constructor
    · rintro ⟨ha, hb⟩
      exact ⟨[], [], rfl, ha, hb⟩
    · rintro ⟨xs, ys, hnil, ha, hb⟩
      obtain ⟨rfl, rfl⟩ := List.append_eq_nil_iff.mp hnil.symm
      exact ⟨ha, hb⟩
  | alt a b iha ihb => rw [nullable, Bool.or_eq_true, iha, ihb, matches_alt_iff]
  | many a => exact iff_of_true rfl .stop

theorem matches_andThen_iff {a b : Pattern} {cs : List Char} :
    Matches (a.andThen b) cs ↔ Matches (.seq a b) cs := by
  cases a with
  | nothing => simp [andThen, matches_seq_iff, matches_nothing_iff]
  | one k => rfl
  | seq a₁ a₂ => rfl
  | alt a₁ a₂ => rfl
  | many a₁ => rfl

/-- **The derivatives of a pattern** describe what is left of a text after its first character. -/
theorem matches_cons_iff {p : Pattern} {c : Char} {cs : List Char} :
    Matches p (c :: cs) ↔ ∃ q ∈ p.steps c, Matches q cs := by
  -- a derivative of the first part goes on with the second
  have hthen : ∀ {a : Pattern} (b : Pattern) {cs : List Char},
      (∀ {xs}, Matches a (c :: xs) ↔ ∃ q ∈ a.steps c, Matches q xs) →
      ((∃ q ∈ (a.steps c).map (·.andThen b), Matches q cs) ↔
        ∃ xs ys, cs = xs ++ ys ∧ Matches a (c :: xs) ∧ Matches b ys) := by
    intro a b cs ha
    constructor
    · rintro ⟨_, hmem, hcs⟩
      obtain ⟨q, hq, rfl⟩ := List.mem_map.mp hmem
      obtain ⟨xs, ys, rfl, hxs, hys⟩ := matches_seq_iff.mp (matches_andThen_iff.mp hcs)
      exact ⟨xs, ys, rfl, ha.mpr ⟨q, hq, hxs⟩, hys⟩
    · rintro ⟨xs, ys, rfl, hxs, hys⟩
      obtain ⟨q, hq, hxs⟩ := ha.mp hxs
      exact ⟨_, List.mem_map_of_mem hq, matches_andThen_iff.mpr (.seq hxs hys)⟩
  induction p generalizing cs with
  | nothing => simp [steps, matches_nothing_iff]
  | one k =>
    rw [steps, matches_one_iff]
    by_cases hc : k.holds c = true
    · simp [hc, matches_nothing_iff]
    · simp [hc]
  | seq a b iha ihb =>
    simp only [steps, List.mem_append, or_and_right, exists_or]
    rw [hthen b iha, matches_seq_iff]
    constructor
    · rintro ⟨xs, ys, hcs, ha, hb⟩
      rcases List.cons_eq_append_iff.mp hcs with ⟨rfl, rfl⟩ | ⟨xs, rfl, rfl⟩
      · obtain ⟨q, hq, hrest⟩ := ihb.mp hb
        exact Or.inr ⟨q, by rwa [if_pos (nullable_iff.mpr ha)], hrest⟩
      · exact Or.inl ⟨xs, ys, rfl, ha, hb⟩
    · rintro (⟨xs, ys, rfl, ha, hb⟩ | ⟨q, hq, hrest⟩)
      · exact ⟨c :: xs, ys, rfl, ha, hb⟩
      · split at hq
        · rename_i hnull
          exact ⟨[], c :: cs, rfl, nullable_iff.mp hnull, ihb.mpr ⟨q, hq, hrest⟩⟩
        · cases hq
  | alt a b iha ihb =>
    simp only [steps, List.mem_append, or_and_right, exists_or]
    exact matches_alt_iff.trans (or_congr iha ihb)
  | many a ih => rw [steps, hthen (.many a) ih, matches_many_cons_iff]

/-! ## 3. Searching -/

theorem mem_advance_iff {p q : Pattern} {states : List Pattern} {c : Char} :
    q ∈ advance p states c ↔ q = p ∨ ∃ s ∈ states, q ∈ s.steps c := by
  rw [advance, List.mem_eraseDups, List.mem_cons, List.mem_flatMap]

/-- The reader finds what it has in progress from here on, or the pattern further on. -/
theorem endsIn_iff {p : Pattern} {states : List Pattern} {cs : List Char} (hp : p ∈ states) :
    endsIn p states cs = true ↔
      (∃ s ∈ states, ∃ m, m <+: cs ∧ Matches s m) ∨ ∃ m, m <:+: cs ∧ Matches p m := by
  have hnull : ∀ states : List Pattern,
      List.any states nullable = true ↔ ∃ s ∈ states, Matches s [] := by
    intro states
    simp only [List.any_eq_true, nullable_iff]
  induction cs generalizing states with
  | nil =>
    rw [endsIn, hnull]
    constructor
    · rintro ⟨s, hs, hnil⟩
      exact Or.inl ⟨s, hs, [], List.nil_prefix, hnil⟩
    · rintro (⟨s, hs, m, hm, hmatch⟩ | ⟨m, hm, hmatch⟩)
      · exact ⟨s, hs, List.prefix_nil.mp hm ▸ hmatch⟩
      · exact ⟨p, hp, List.infix_nil.mp hm ▸ hmatch⟩
  | cons c cs ih =>
    have hnext : p ∈ advance p states c := mem_advance_iff.mpr (Or.inl rfl)
    rw [endsIn, Bool.or_eq_true, hnull]
    refine (or_congr_right (ih hnext)).trans ⟨?_, ?_⟩
    · rintro (⟨s, hs, hnil⟩ | ⟨q, hq, m, hm, hmatch⟩ | ⟨m, hm, hmatch⟩)
      · exact Or.inl ⟨s, hs, [], List.nil_prefix, hnil⟩
      · rcases mem_advance_iff.mp hq with rfl | ⟨s, hs, hq⟩
        · exact Or.inr ⟨m, List.infix_cons hm.isInfix, hmatch⟩
        · exact Or.inl ⟨s, hs, c :: m, (List.prefix_cons_inj c).mpr hm,
            matches_cons_iff.mpr ⟨q, hq, hmatch⟩⟩
      · exact Or.inr ⟨m, List.infix_cons hm, hmatch⟩
    · -- a part that starts here is in progress, and has its first character read
      have hhere : ∀ s ∈ states, ∀ m, m <+: c :: cs → Matches s m →
          (∃ s ∈ states, Matches s []) ∨
            ∃ q ∈ advance p states c, ∃ m, m <+: cs ∧ Matches q m := by
        intro s hs m hm hmatch
        rcases List.prefix_cons_iff.mp hm with rfl | ⟨t, rfl, ht⟩
        · exact Or.inl ⟨s, hs, hmatch⟩
        · obtain ⟨q, hq, hrest⟩ := matches_cons_iff.mp hmatch
          exact Or.inr ⟨q, mem_advance_iff.mpr (Or.inr ⟨s, hs, hq⟩), t, ht, hrest⟩
      rintro (⟨s, hs, m, hm, hmatch⟩ | ⟨m, hm, hmatch⟩)
      · exact (hhere s hs m hm hmatch).imp_right Or.inl
      · rcases List.infix_cons_iff.mp hm with hm | hm
        · exact (hhere p hp m hm hmatch).imp_right Or.inl
        · exact Or.inr (Or.inr ⟨m, hm, hmatch⟩)

/-- **A pattern occurs in a text** if some part of the text is described by it. -/
theorem occursIn_iff {p : Pattern} {cs : List Char} :
    p.occursIn cs = true ↔ ∃ m, m <:+: cs ∧ Matches p m := by
  rw [occursIn, endsIn_iff (List.mem_singleton_self p)]
  constructor
  · rintro (⟨s, hs, m, hm, hmatch⟩ | h)
    · exact ⟨m, hm.isInfix, List.mem_singleton.mp hs ▸ hmatch⟩
    · exact h
  · exact Or.inr

/-- A character that the pattern cannot start with does not count in front of a text. -/
theorem occursIn_cons {p : Pattern} {c : Char} (h : p.steps c = []) (cs : List Char) :
    p.occursIn (c :: cs) = p.occursIn cs := by
  rw [Bool.eq_iff_iff, occursIn_iff, occursIn_iff]
  constructor
  · rintro ⟨m, hm, hmatch⟩
    rcases List.infix_cons_iff.mp hm with hm | hm
    · rcases List.prefix_cons_iff.mp hm with rfl | ⟨m, rfl, -⟩
      · exact ⟨[], List.nil_infix, hmatch⟩
      · obtain ⟨q, hq, -⟩ := matches_cons_iff.mp hmatch
        rw [h] at hq
        cases hq
    · exact ⟨m, hm, hmatch⟩
  · rintro ⟨m, hm, hmatch⟩
    exact ⟨m, List.infix_cons hm, hmatch⟩

end CodeDiagram.Text.Pattern
