/-
# Patterns and the writing of breaks

A break can be written in three ways, and `normalize` leaves one of them.  Whether a pattern occurs
in a text should not depend on the way; this file says for which patterns it does not
(`occursIn_normalizeChars`).

What a pattern describes after the breaks are made uniform it describes before, if it has a break
only in repetitions of a class (`isElastic`, `matches_of_uniform`).  The way back has one trap more:
a pair of a return and a line feed becomes one character, so it must not be shared by two parts of
the pattern (`isSeparated`, `matches_uniform`) or by the pattern and what is around it.
-/
import CodeDiagram.Proofs.Text.Searching
import CodeDiagram.Text.Lines

namespace CodeDiagram.Text

/-! ## 1. Uniform breaks -/

/-- The text with each of its breaks a single line feed. -/
def uniform (cs : List Char) : List Char := (joinBreakPairs cs).map breakAtReturn

theorem normalizeChars_eq (cs : List Char) :
    normalizeChars cs = uniform (cs.dropWhile (· == byteOrderMark)) := rfl

@[simp] theorem uniform_nil : uniform [] = [] := rfl

theorem uniform_pair (cs : List Char) : uniform ('\r' :: '\n' :: cs) = '\n' :: uniform cs := rfl

/-- What the recursion over pairs tells of a character that starts none. -/
theorem head?_ne_of_not_pair {c : Char} {cs : List Char}
    (h : ∀ rest, c = '\r' → cs = '\n' :: rest → False) : c = '\r' → cs.head? ≠ some '\n' := by
  intro hc hcs
  obtain ⟨rest, hrest⟩ := List.head?_eq_some_iff.mp hcs
  exact h rest hc hrest

/-- A character that does not start a pair stands for itself. -/
theorem uniform_cons {c : Char} {cs : List Char} (h : c = '\r' → cs.head? ≠ some '\n') :
    uniform (c :: cs) = breakAtReturn c :: uniform cs := by
  rw [uniform, joinBreakPairs]
  · rfl
  · rintro rest rfl rfl
    exact h rfl rfl

/-- Whatever follows, the first character stays, or becomes a line feed. -/
theorem exists_uniform_cons (c : Char) (cs : List Char) :
    ∃ rest, uniform (c :: cs) = breakAtReturn c :: rest := by
  by_cases h : c = '\r' → cs.head? ≠ some '\n'
  · exact ⟨uniform cs, uniform_cons h⟩
  · obtain ⟨rfl, hcs⟩ := Classical.not_imp.mp h
    obtain ⟨rest, rfl⟩ := List.head?_eq_some_iff.mp (Classical.not_not.mp hcs)
    exact ⟨uniform rest, rfl⟩

theorem uniform_eq_nil_iff {cs : List Char} : uniform cs = [] ↔ cs = [] := by
  cases cs with
  | nil => simp
  | cons c cs =>
    obtain ⟨rest, hrest⟩ := exists_uniform_cons c cs
    simp [hrest]

/-- **Each part is made uniform by itself** where no pair is cut in two. -/
theorem uniform_append {as bs : List Char}
    (h : as.getLast? = some '\r' → bs.head? ≠ some '\n') :
    uniform (as ++ bs) = uniform as ++ uniform bs := by
  induction as using joinBreakPairs.induct with
  | case1 as ih =>
    rw [List.cons_append, List.cons_append, uniform_pair, uniform_pair, List.cons_append]
    refine congrArg _ (ih fun hlast => h ?_)
    rw [List.getLast?_cons, List.getLast?_cons, hlast]
    rfl
  | case2 c as hpair ih =>
    have halone := head?_ne_of_not_pair hpair
    have halone' : c = '\r' → (as ++ bs).head? ≠ some '\n' := by
      intro hc
      cases as with
      | nil => exact h (by rw [hc]; rfl)
      | cons a as => exact halone hc
    rw [List.cons_append, uniform_cons halone', uniform_cons halone, List.cons_append]
    refine congrArg _ (ih fun hlast => h ?_)
    rw [List.getLast?_cons, hlast]
    rfl
  | case3 => rfl

/-- **Parts of a uniform text come from parts of the text.** -/
theorem exists_of_uniform_eq_append {cs ys zs : List Char} (h : uniform cs = ys ++ zs) :
    ∃ as bs, cs = as ++ bs ∧ uniform as = ys ∧ uniform bs = zs := by
  induction cs using joinBreakPairs.induct generalizing ys with
  | case1 cs ih =>
    rw [uniform_pair] at h
    rcases List.cons_eq_append_iff.mp h with ⟨rfl, rfl⟩ | ⟨ys, rfl, hrest⟩
    · exact ⟨[], _, rfl, rfl, uniform_pair cs⟩
    · obtain ⟨as, bs, rfl, hys, hzs⟩ := ih hrest
      exact ⟨'\r' :: '\n' :: as, bs, rfl, by rw [uniform_pair, hys], hzs⟩
  | case2 c cs hpair ih =>
    have halone := head?_ne_of_not_pair hpair
    rw [uniform_cons halone] at h
    rcases List.cons_eq_append_iff.mp h with ⟨rfl, rfl⟩ | ⟨ys, rfl, hrest⟩
    · exact ⟨[], _, rfl, rfl, uniform_cons halone⟩
    · obtain ⟨as, bs, rfl, hys, hzs⟩ := ih hrest
      refine ⟨c :: as, bs, rfl, ?_, hzs⟩
      rw [uniform_cons, hys]
      intro hc has
      obtain ⟨rest, rfl⟩ := List.head?_eq_some_iff.mp has
      exact halone hc rfl
  | case3 =>
    obtain ⟨rfl, rfl⟩ := List.append_eq_nil_iff.mp h.symm
    exact ⟨[], [], rfl, rfl, rfl⟩

/-! ## 2. Classes and breaks -/

namespace CharClass

/-- Both characters of a break are of the class, or neither is. -/
def isEven (k : CharClass) : Bool := k.holds '\r' == k.holds '\n'

/-- No character of a break is of the class. -/
def isBreakless (k : CharClass) : Bool := !k.holds '\r' && !k.holds '\n'

theorem isEven_of_isBreakless {k : CharClass} (h : k.isBreakless = true) : k.isEven = true := by
  rw [isBreakless, Bool.and_eq_true, Bool.not_eq_true', Bool.not_eq_true'] at h
  rw [isEven, h.1, h.2]
  rfl

theorem holds_breakAtReturn {k : CharClass} (h : k.isEven = true) (c : Char) :
    k.holds (breakAtReturn c) = k.holds c := by
  unfold breakAtReturn
  split
  · rename_i hc
    rw [hc, beq_iff_eq.mp h]
  · rfl

/-- A text is of an even class before its breaks are made uniform and after, or never. -/
theorem forall_uniform_iff {k : CharClass} (h : k.isEven = true) (cs : List Char) :
    (∀ c ∈ uniform cs, k.holds c = true) ↔ ∀ c ∈ cs, k.holds c = true := by
  induction cs using joinBreakPairs.induct with
  | case1 cs ih =>
    rw [uniform_pair, List.forall_mem_cons, List.forall_mem_cons, List.forall_mem_cons, ih,
      beq_iff_eq.mp h, and_self_left]
  | case2 c cs hpair ih =>
    have halone := head?_ne_of_not_pair hpair
    rw [uniform_cons halone, List.forall_mem_cons, List.forall_mem_cons, ih, holds_breakAtReturn h]
  | case3 => rfl

end CharClass

/-! ## 3. Patterns and breaks -/

namespace Pattern

/-- Whether two patterns in a row are at least one of a class that is even. -/
def isRun : Pattern → Pattern → Bool
  | .one k, .many (.one l) => k == l && k.isEven
  | _, _ => false

/-- Whether a pattern has breaks only where it repeats a class, which has both characters of
them. -/
def isElastic : Pattern → Bool
  | .nothing => true
  | .one k => k.isBreakless
  | .seq a b => isRun a b || (a.isElastic && b.isElastic)
  | .alt a b => a.isElastic && b.isElastic
  | .many (.one k) => k.isEven
  | .many _ => false

/-- Whether a text that a pattern describes may end with a character. -/
def endsWith (c : Char) : Pattern → Bool
  | .nothing => false
  | .one k => k.holds c
  | .seq a b => b.endsWith c || (b.nullable && a.endsWith c)
  | .alt a b => a.endsWith c || b.endsWith c
  | .many a => a.endsWith c

/-- Whether no pair of a return and a line feed is shared by two parts of a pattern. -/
def isSeparated : Pattern → Bool
  | .seq a b => isRun a b ||
      (a.isSeparated && b.isSeparated && (!a.endsWith '\r' || (b.steps '\n').isEmpty))
  | .alt a b => a.isSeparated && b.isSeparated
  | _ => true

theorem eq_some_of_isRun {a b : Pattern} (h : isRun a b = true) :
    ∃ k : CharClass, .seq a b = some k ∧ k.isEven = true := by
  unfold isRun at h
  split at h
  · rename_i k l
    obtain ⟨hkl, heven⟩ := Bool.and_eq_true_iff.mp h
    rw [← beq_iff_eq.mp hkl]
    exact ⟨k, rfl, heven⟩
  · cases h

theorem endsWith_of_matches {p : Pattern} {cs : List Char} {c : Char} (h : Matches p cs)
    (hlast : cs.getLast? = .some c) : p.endsWith c = true := by
  induction h with
  | nothing => cases hlast
  | one hc =>
    obtain rfl := Option.some.inj hlast
    exact hc
  | @seq a b xs ys ha hb iha ihb =>
    rw [endsWith, Bool.or_eq_true, Bool.and_eq_true]
    cases ys with
    | nil =>
      rw [List.append_nil] at hlast
      exact Or.inr ⟨nullable_iff.mpr hb, iha hlast⟩
    | cons y ys =>
      rw [List.getLast?_append_of_ne_nil _ (List.cons_ne_nil y ys)] at hlast
      exact Or.inl (ihb hlast)
  | left _ ih =>
    rw [endsWith, Bool.or_eq_true]
    exact Or.inl (ih hlast)
  | right _ ih =>
    rw [endsWith, Bool.or_eq_true]
    exact Or.inr (ih hlast)
  | stop => cases hlast
  | @more a xs ys ha hs iha ihs =>
    cases ys with
    | nil =>
      rw [List.append_nil] at hlast
      exact iha hlast
    | cons y ys =>
      rw [List.getLast?_append_of_ne_nil _ (List.cons_ne_nil y ys)] at hlast
      exact ihs hlast

/-- A pattern without a derivative describes no text that starts with the character. -/
theorem head?_ne_of_steps_eq_nil {p : Pattern} {c : Char} {cs : List Char} (h : p.steps c = [])
    (hmatch : Matches p cs) : cs.head? ≠ .some c := by
  intro hhead
  obtain ⟨rest, rfl⟩ := List.head?_eq_some_iff.mp hhead
  obtain ⟨q, hq, -⟩ := matches_cons_iff.mp hmatch
  rw [h] at hq
  cases hq

/-- **Breaks may be written in any way** where an elastic pattern has uniform ones. -/
theorem matches_of_uniform {p : Pattern} (h : p.isElastic = true) {cs : List Char}
    (hmatch : Matches p (uniform cs)) : Matches p cs := by
  induction p generalizing cs with
  | nothing =>
    rw [matches_nothing_iff, uniform_eq_nil_iff] at hmatch
    rw [hmatch]
    exact .nothing
  | one k =>
    obtain ⟨c, hcs, hc⟩ := matches_one_iff.mp hmatch
    have hall : ∀ d ∈ cs, k.holds d = true :=
      (CharClass.forall_uniform_iff (CharClass.isEven_of_isBreakless h) cs).mp
        (hcs ▸ List.forall_mem_singleton.mpr hc)
    -- without a break there is nothing to make uniform
    cases cs with
    | nil => cases hcs
    | cons d ds =>
      have hd := hall d List.mem_cons_self
      have hreturn : d ≠ '\r' := by
        rintro rfl
        rw [isElastic, CharClass.isBreakless, hd] at h
        cases h
      rw [uniform_cons fun hreturn' => absurd hreturn' hreturn] at hcs
      rw [uniform_eq_nil_iff.mp (List.cons.inj hcs).2]
      exact .one hd
  | seq a b iha ihb =>
    rw [isElastic, Bool.or_eq_true, Bool.and_eq_true] at h
    rcases h with hrun | ⟨ha, hb⟩
    · obtain ⟨k, hk, heven⟩ := eq_some_of_isRun hrun
      rw [hk, matches_some_iff] at hmatch ⊢
      rwa [CharClass.forall_uniform_iff heven, ne_eq, uniform_eq_nil_iff] at hmatch
    · obtain ⟨xs, ys, hcs, hxs, hys⟩ := matches_seq_iff.mp hmatch
      obtain ⟨as, bs, rfl, rfl, rfl⟩ := exists_of_uniform_eq_append hcs
      exact .seq (iha ha hxs) (ihb hb hys)
  | alt a b iha ihb =>
    rw [isElastic, Bool.and_eq_true] at h
    rcases matches_alt_iff.mp hmatch with hmatch | hmatch
    · exact .left (iha h.1 hmatch)
    · exact .right (ihb h.2 hmatch)
  | many a =>
    cases a with
    | one k => exact matches_any_iff.mpr ((CharClass.forall_uniform_iff h cs).mp
        (matches_any_iff.mp hmatch))
    | nothing => cases h
    | seq => cases h
    | alt => cases h
    | many => cases h

/-- **Breaks may be made uniform** where no pair is shared by parts of the pattern. -/
theorem matches_uniform {p : Pattern} (helastic : p.isElastic = true)
    (hseparated : p.isSeparated = true) {cs : List Char} (hmatch : Matches p cs) :
    Matches p (uniform cs) := by
  induction p generalizing cs with
  | nothing =>
    rw [matches_nothing_iff.mp hmatch]
    exact .nothing
  | one k =>
    obtain ⟨c, rfl, hc⟩ := matches_one_iff.mp hmatch
    have halone : uniform [c] = [breakAtReturn c] := uniform_cons fun _ => nofun
    rw [halone]
    refine .one ?_
    rwa [CharClass.holds_breakAtReturn (CharClass.isEven_of_isBreakless helastic)]
  | seq a b iha ihb =>
    rw [isElastic, Bool.or_eq_true, Bool.and_eq_true] at helastic
    rw [isSeparated, Bool.or_eq_true, Bool.and_eq_true, Bool.and_eq_true] at hseparated
    by_cases hrun : isRun a b = true
    · obtain ⟨k, hk, heven⟩ := eq_some_of_isRun hrun
      rw [hk, matches_some_iff] at hmatch ⊢
      rwa [CharClass.forall_uniform_iff heven, ne_eq, uniform_eq_nil_iff]
    · obtain ⟨ha, hb⟩ := helastic.resolve_left hrun
      obtain ⟨⟨hsa, hsb⟩, hapart⟩ := hseparated.resolve_left hrun
      obtain ⟨xs, ys, rfl, hxs, hys⟩ := matches_seq_iff.mp hmatch
      rw [uniform_append]
      · exact .seq (iha ha hsa hxs) (ihb hb hsb hys)
      · intro hlast
        rw [endsWith_of_matches hxs hlast, Bool.not_true, Bool.false_or, List.isEmpty_iff] at hapart
        exact head?_ne_of_steps_eq_nil hapart hys
  | alt a b iha ihb =>
    rw [isElastic, Bool.and_eq_true] at helastic
    rw [isSeparated, Bool.and_eq_true] at hseparated
    rcases matches_alt_iff.mp hmatch with hmatch | hmatch
    · exact .left (iha helastic.1 hseparated.1 hmatch)
    · exact .right (ihb helastic.2 hseparated.2 hmatch)
  | many a =>
    cases a with
    | one k => exact matches_any_iff.mpr ((CharClass.forall_uniform_iff helastic cs).mpr
        (matches_any_iff.mp hmatch))
    | nothing => cases helastic
    | seq => cases helastic
    | alt => cases helastic
    | many => cases helastic

/-! ## 4. Searching for patterns -/

/-- Whether a pattern shares no pair of a return and a line feed, be it among its parts or with
what is around it, and does not start with a byte order mark. -/
def isTolerant (p : Pattern) : Bool :=
  p.isElastic && p.isSeparated && (p.steps '\n').isEmpty && !p.endsWith '\r' &&
    (p.steps byteOrderMark).isEmpty

/-- Leading byte order marks do not count for a pattern that starts with something else. -/
theorem occursIn_dropWhile {p : Pattern} (h : p.steps byteOrderMark = []) (cs : List Char) :
    p.occursIn (cs.dropWhile (· == byteOrderMark)) = p.occursIn cs := by
  induction cs with
  | nil => rfl
  | cons c cs ih =>
    rw [List.dropWhile_cons]
    split
    · rename_i hc
      rw [ih, beq_iff_eq.mp hc, occursIn_cons h]
    · rfl

/-- What is described in a uniform text comes from what is described in the text. -/
theorem exists_infix_of_uniform {p : Pattern} (h : p.isElastic = true) {cs m : List Char}
    (hm : m <:+: uniform cs) (hmatch : Matches p m) :
    ∃ m', m' <:+: cs ∧ Matches p m' ∧ uniform m' = m := by
  obtain ⟨before, after, heq⟩ := hm
  obtain ⟨front, bs, rfl, hfront, -⟩ := exists_of_uniform_eq_append heq.symm
  obtain ⟨as, m', rfl, -, rfl⟩ := exists_of_uniform_eq_append hfront
  exact ⟨m', ⟨as, bs, rfl⟩, matches_of_uniform h hmatch, rfl⟩

/-- **A tolerant pattern occurs in a text however its breaks are written.** -/
theorem occursIn_normalizeChars {p : Pattern} (h : p.isTolerant = true) (cs : List Char) :
    p.occursIn (normalizeChars cs) = p.occursIn cs := by
  simp only [isTolerant, Bool.and_eq_true, List.isEmpty_iff, Bool.not_eq_true'] at h
  obtain ⟨⟨⟨⟨helastic, hseparated⟩, hstart⟩, hend⟩, hmark⟩ := h
  rw [normalizeChars_eq, ← occursIn_dropWhile hmark cs, Bool.eq_iff_iff, occursIn_iff, occursIn_iff]
  constructor
  · rintro ⟨m, hm, hmatch⟩
    obtain ⟨m', hm', hmatch', -⟩ := exists_infix_of_uniform helastic hm hmatch
    exact ⟨m', hm', hmatch'⟩
  · rintro ⟨m, ⟨before, after, hcs⟩, hmatch⟩
    by_cases hm : m = []
    · exact ⟨[], List.nil_infix, hm ▸ hmatch⟩
    refine ⟨uniform m, ⟨uniform before, uniform after, ?_⟩,
      matches_uniform helastic hseparated hmatch⟩
    -- neither end of the part is inside a pair
    have hbefore : uniform (before ++ m) = uniform before ++ uniform m :=
      uniform_append fun _ => head?_ne_of_steps_eq_nil hstart hmatch
    have hafter : uniform (before ++ m ++ after) = uniform (before ++ m) ++ uniform after := by
      refine uniform_append fun hlast => ?_
      rw [List.getLast?_append_of_ne_nil _ hm] at hlast
      rw [endsWith_of_matches hmatch hlast] at hend
      cases hend
    rw [← hcs, hafter, hbefore]

end Pattern

end CodeDiagram.Text
