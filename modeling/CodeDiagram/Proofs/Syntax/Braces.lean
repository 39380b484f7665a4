/-
# Braces in trees

The tokens of a tree are its leaves, in document order.  Some of them are braces.  If every node has
braces only as its first and its last child (`Tree.isPaired`), then the tokens of a node open and
close braces in turn (`Tree.isBalanced_tokens`).

A text that is put between two braces may close the first of them itself.  It stays between them
exactly if it opens and closes braces in turn (`isBalanced_tokensFrom_iff`).
-/
import CodeDiagram.Syntax.Tree
import Mathlib.Algebra.BigOperators.Group.List.Basic
import Mathlib.Algebra.Ring.Int.Defs
import Mathlib.Data.List.Flatten
import Mathlib.Data.List.Infix

namespace CodeDiagram.Syntax

/-! ## 1. Braces among tokens -/

namespace Info

/-- Whether a token opens a brace; the second form stands inside strings. -/
def isOpening (i : Info) : Bool := i.kind == "\x7b" || i.kind == "\\\x7b"

/-- Whether a token closes a brace. -/
def isClosing (i : Info) : Bool := i.kind == "\x7d"

/-- Whether a token is a brace. -/
def isBrace (i : Info) : Bool := i.isOpening || i.isClosing

/-- How much deeper in braces a text is behind a token. -/
def turn (i : Info) : Int := if i.isOpening then 1 else if i.isClosing then -1 else 0

theorem turn_of_isOpening {i : Info} (h : i.isOpening = true) : i.turn = 1 := if_pos h

theorem turn_of_isClosing {i : Info} (h : i.isClosing = true) : i.turn = -1 := by
  have hno : i.isOpening = false := by
    rw [isClosing, beq_iff_eq] at h
    rw [isOpening, h]
    decide
  rw [turn, hno, if_neg Bool.false_ne_true, if_pos h]

theorem turn_of_not_isBrace {i : Info} (h : i.isBrace = false) : i.turn = 0 := by
  obtain ⟨hopening, hclosing⟩ := Bool.or_eq_false_iff.mp h
  rw [turn, hopening, hclosing, if_neg Bool.false_ne_true, if_neg Bool.false_ne_true]

/-- A token is in the text what its kind says. -/
def IsReadIn (i : Info) (text : String) : Prop :=
  text.toByteArray.extract i.start i.stop = i.kind.toByteArray

instance (i : Info) (text : String) : Decidable (i.IsReadIn text) :=
  inferInstanceAs (Decidable (_ = _))

/-- The bytes that braces start with. -/
def braceBytes : List UInt8 := "\x7b\\\x7d".toByteArray.data.toList

theorem exists_braceByte {i : Info} (h : i.isBrace = true) :
    ∃ b ∈ braceBytes, i.kind.toByteArray.data[0]? = some b := by
  simp only [isBrace, isOpening, isClosing, Bool.or_eq_true, beq_iff_eq] at h
  rcases h with (h | h) | h <;> rw [h] <;> decide +kernel

/-- A brace is not empty, and starts with a byte of braces. -/
theorem IsReadIn.brace {i : Info} {text : String} (h : i.IsReadIn text)
    (hbrace : i.isBrace = true) :
    i.start < i.stop ∧ ∃ b ∈ braceBytes, text.toByteArray.data[i.start]? = some b := by
  obtain ⟨b, hb, hfirst⟩ := exists_braceByte hbrace
  rw [← h, ByteArray.data_extract, Array.getElem?_extract] at hfirst
  split at hfirst
  · rename_i hlt
    exact ⟨by omega, b, hb, hfirst⟩
  · cases hfirst

end Info

/-- How much deeper in braces a text is behind some tokens. -/
def braceDepth (tokens : List Info) : Int := (tokens.map Info.turn).sum

@[simp] theorem braceDepth_nil : braceDepth [] = 0 := rfl

@[simp] theorem braceDepth_cons (i : Info) (l : List Info) :
    braceDepth (i :: l) = i.turn + braceDepth l := by
  simp [braceDepth]

@[simp] theorem braceDepth_append (l m : List Info) :
    braceDepth (l ++ m) = braceDepth l + braceDepth m := by
  simp [braceDepth]

/-- Only braces count for the depth. -/
theorem braceDepth_filter {p : Info → Bool} {l : List Info}
    (h : ∀ i ∈ l, i.isBrace = true → p i = true) : braceDepth (l.filter p) = braceDepth l := by
  induction l with
  | nil => rfl
  | cons i l ih =>
    have ih := ih fun j hj => h j (List.mem_cons_of_mem i hj)
    rw [List.filter_cons]
    split
    · rw [braceDepth_cons, braceDepth_cons, ih]
    · rename_i hp
      have hno : i.isBrace = false :=
        Bool.eq_false_iff.mpr fun hbrace => hp (h i List.mem_cons_self hbrace)
      rw [braceDepth_cons, Info.turn_of_not_isBrace hno, Int.zero_add, ih]

/-- Tokens never close more braces than they have opened. -/
def StaysInside (tokens : List Info) : Prop := ∀ k, 0 ≤ braceDepth (tokens.take k)

theorem StaysInside.depth_nonneg {l m : List Info} (h : StaysInside m) (hl : l <+: m) :
    0 ≤ braceDepth l := by
  have hnonneg := h l.length
  rwa [← List.prefix_iff_eq_take.mp hl] at hnonneg

theorem StaysInside.of_prefix {l m : List Info} (h : StaysInside m) (hl : l <+: m) :
    StaysInside l :=
  fun k => h.depth_nonneg ((List.take_prefix k l).trans hl)

instance (tokens : List Info) : Decidable (StaysInside tokens) :=
  decidable_of_iff (∀ l ∈ tokens.inits, 0 ≤ braceDepth l)
    ⟨fun h k => h _ ((List.mem_inits _ _).mpr (List.take_prefix k tokens)),
      fun h _ hl => StaysInside.depth_nonneg h ((List.mem_inits _ _).mp hl)⟩

/-- Tokens open and close braces in turn, and close all of them. -/
structure IsBalanced (tokens : List Info) : Prop where
  inside : StaysInside tokens
  closed : braceDepth tokens = 0

instance (tokens : List Info) : Decidable (IsBalanced tokens) :=
  decidable_of_iff (StaysInside tokens ∧ braceDepth tokens = 0)
    ⟨fun h => ⟨h.1, h.2⟩, fun h => ⟨h.1, h.2⟩⟩

namespace IsBalanced

variable {l m : List Info}

theorem nil : IsBalanced [] where
  inside k := by
    rw [List.take_nil]
    exact Int.le_refl _
  closed := rfl

theorem append (hl : IsBalanced l) (hm : IsBalanced m) : IsBalanced (l ++ m) where
  inside k := by
    rw [List.take_append, braceDepth_append]
    exact Int.add_nonneg (hl.inside k) (hm.inside (k - l.length))
  closed := by rw [braceDepth_append, hl.closed, hm.closed, Int.add_zero]

theorem flatMap {α : Type} {f : α → List Info} {as : List α} (h : ∀ a ∈ as, IsBalanced (f a)) :
    IsBalanced (as.flatMap f) := by
  induction as with
  | nil => exact .nil
  | cons a as ih =>
    rw [List.flatMap_cons]
    exact (h a List.mem_cons_self).append (ih fun b hb => h b (List.mem_cons_of_mem a hb))

theorem singleton {i : Info} (h : i.isBrace = false) : IsBalanced [i] where
  inside k := by
    cases k with
    | zero => exact Int.le_refl _
    | succ k =>
      rw [List.take_succ_cons, List.take_nil, braceDepth_cons, Info.turn_of_not_isBrace h]
      exact Int.le_refl _
  closed := by rw [braceDepth_cons, Info.turn_of_not_isBrace h, braceDepth_nil, Int.add_zero]

/-- Braces around balanced tokens are balanced. -/
theorem wrap (h : IsBalanced l) {o z : Info} (ho : o.isOpening = true) (hz : z.isClosing = true) :
    IsBalanced (o :: (l ++ [z])) where
  inside k := by
    cases k with
    | zero => exact Int.le_refl _
    | succ k =>
      -- the closing brace takes back no more than the opening one has given
      have hclosing : -1 ≤ braceDepth ([z].take (k - l.length)) := by
        cases k - l.length with
        | zero => exact Int.neg_nonpos_of_nonneg Int.one_nonneg
        | succ j =>
          rw [List.take_succ_cons, List.take_nil, braceDepth_cons, Info.turn_of_isClosing hz]
          exact Int.le_refl _
      have hinner := h.inside k
      rw [List.take_succ_cons, List.take_append, braceDepth_cons, braceDepth_append,
        Info.turn_of_isOpening ho]
      omega
  closed := by
    rw [braceDepth_cons, braceDepth_append, braceDepth_cons, braceDepth_nil, h.closed,
      Info.turn_of_isOpening ho, Info.turn_of_isClosing hz]
    rfl

end IsBalanced

/-! ## 2. The tokens of a tree -/

namespace Tree

mutual

/-- The leaves of a tree, in document order. -/
def tokens : Tree → List Info
  | .node info [] => [info]
  | .node _ (t :: ts) => t.tokens ++ tokensAmong ts

/-- The leaves of a list of trees. -/
def tokensAmong : List Tree → List Info
  | [] => []
  | t :: ts => t.tokens ++ tokensAmong ts

end

mutual

/-- A tree and all that is below it. -/
def nodes : Tree → List Tree
  | .node info children => .node info children :: nodesAmong children

/-- A list of trees and all that is below them. -/
def nodesAmong : List Tree → List Tree
  | [] => []
  | t :: ts => t.nodes ++ nodesAmong ts

end

theorem tokensAmong_eq_flatMap (ts : List Tree) : tokensAmong ts = ts.flatMap tokens := by
  induction ts with
  | nil => rfl
  | cons t ts ih => rw [tokensAmong, ih, List.flatMap_cons]

theorem nodesAmong_eq_flatMap (ts : List Tree) : nodesAmong ts = ts.flatMap nodes := by
  induction ts with
  | nil => rfl
  | cons t ts ih => rw [nodesAmong, ih, List.flatMap_cons]

theorem tokens_of_leaf {t : Tree} (h : t.children = []) : t.tokens = [t.info] := by
  obtain ⟨info, cs⟩ := t
  obtain rfl : cs = [] := h
  rfl

theorem tokens_of_ne_nil {t : Tree} (h : t.children ≠ []) :
    t.tokens = t.children.flatMap tokens := by
  obtain ⟨info, cs⟩ := t
  cases cs with
  | nil => exact absurd rfl h
  | cons c cs => rw [tokens, tokensAmong_eq_flatMap, children, List.flatMap_cons]

theorem nodes_eq (t : Tree) : t.nodes = t :: t.children.flatMap nodes := by
  obtain ⟨info, cs⟩ := t
  rw [nodes, nodesAmong_eq_flatMap, children]

theorem mem_nodes_self (t : Tree) : t ∈ t.nodes := by
  rw [nodes_eq]
  exact List.mem_cons_self

theorem mem_nodes_of_mem_children {t c u : Tree} (hc : c ∈ t.children) (hu : u ∈ c.nodes) :
    u ∈ t.nodes := by
  rw [nodes_eq]
  exact List.mem_cons_of_mem _ (List.mem_flatMap.mpr ⟨c, hc, hu⟩)

theorem nodes_subset_of_mem_children {t c : Tree} (hc : c ∈ t.children) : c.nodes ⊆ t.nodes :=
  fun _ hu => mem_nodes_of_mem_children hc hu

/-- What follows for a tree from its children holds of every tree. -/
theorem children_induction {p : Tree → Prop} (h : ∀ t, (∀ c ∈ t.children, p c) → p t)
    (t : Tree) : p t :=
  h t fun c _ => children_induction h c
termination_by t.size
decreasing_by exact size_lt_of_mem_children ‹_›

/-- What is below a node is below the tree. -/
theorem nodes_subset_of_mem_nodes {t u : Tree} (h : u ∈ t.nodes) : u.nodes ⊆ t.nodes := by
  induction t using children_induction with
  | h t ih =>
    rw [nodes_eq] at h
    rcases List.mem_cons.mp h with rfl | h
    · exact List.Subset.refl _
    · obtain ⟨c, hc, hu⟩ := List.mem_flatMap.mp h
      exact List.Subset.trans (ih c hc hu) (nodes_subset_of_mem_children hc)

/-- The tokens of a node stand together in those of the tree. -/
theorem tokens_infix {t u : Tree} (h : u ∈ t.nodes) : u.tokens <:+: t.tokens := by
  induction t using children_induction with
  | h t ih =>
    rw [nodes_eq] at h
    rcases List.mem_cons.mp h with rfl | h
    · exact List.infix_refl _
    · obtain ⟨c, hc, hu⟩ := List.mem_flatMap.mp h
      rw [tokens_of_ne_nil (List.ne_nil_of_mem hc)]
      obtain ⟨a, b, hab⟩ := List.append_of_mem hc
      rw [hab, List.flatMap_append, List.flatMap_cons, ← List.append_assoc]
      exact (ih c hc hu).trans ⟨_, _, rfl⟩

/-! ## 3. Places of tokens -/

/-- The children of a node are inside it, one after the other. -/
def IsLaidOut (t : Tree) : Prop :=
  t.info.start ≤ t.info.stop ∧
    (∀ c ∈ t.children, t.info.start ≤ c.info.start ∧ c.info.stop ≤ t.info.stop) ∧
    t.children.Pairwise fun a b => a.info.stop ≤ b.info.start

instance (t : Tree) : Decidable t.IsLaidOut := inferInstanceAs (Decidable (_ ∧ _ ∧ _))

/-- Tokens are inside the node that they are tokens of. -/
theorem tokens_within {t : Tree} (h : ∀ u ∈ t.nodes, u.IsLaidOut) :
    ∀ i ∈ t.tokens, t.info.start ≤ i.start ∧ i.start ≤ i.stop ∧ i.stop ≤ t.info.stop := by
  induction t using children_induction with
  | h t ih =>
    obtain ⟨hle, hwithin, -⟩ := h t t.mem_nodes_self
    intro i hi
    by_cases hleaf : t.children = []
    · rw [tokens_of_leaf hleaf] at hi
      rw [List.mem_singleton.mp hi]
      exact ⟨Nat.le_refl _, hle, Nat.le_refl _⟩
    · rw [tokens_of_ne_nil hleaf] at hi
      obtain ⟨c, hc, hi⟩ := List.mem_flatMap.mp hi
      obtain ⟨hstart, hi, hstop⟩ := ih c hc (fun u hu => h u (mem_nodes_of_mem_children hc hu)) i hi
      obtain ⟨hcstart, hcstop⟩ := hwithin c hc
      exact ⟨Nat.le_trans hcstart hstart, hi, Nat.le_trans hstop hcstop⟩

/-- Tokens stand one after the other. -/
theorem tokens_sorted {t : Tree} (h : ∀ u ∈ t.nodes, u.IsLaidOut) :
    t.tokens.Pairwise fun i j => i.stop ≤ j.start := by
  induction t using children_induction with
  | h t ih =>
    obtain ⟨-, -, hsorted⟩ := h t t.mem_nodes_self
    have hbelow : ∀ c ∈ t.children, ∀ u ∈ c.nodes, u.IsLaidOut := fun c hc u hu =>
      h u (mem_nodes_of_mem_children hc hu)
    by_cases hleaf : t.children = []
    · rw [tokens_of_leaf hleaf]
      exact List.pairwise_singleton _ _
    · rw [tokens_of_ne_nil hleaf, List.pairwise_flatMap]
      refine ⟨fun c hc => ih c hc (hbelow c hc), hsorted.imp_of_mem fun {a b} ha hb hab => ?_⟩
      intro i hi j hj
      have hi := (tokens_within (hbelow a ha) i hi).2.2
      have hj := (tokens_within (hbelow b hb) j hj).1
      exact Nat.le_trans hi (Nat.le_trans hab hj)

/-! ## 4. Braces around nodes -/

/-- Whether a tree is a brace. -/
def isBraceToken (t : Tree) : Bool := t.children.isEmpty && t.info.isBrace

/-- Whether a tree is one byte that closes a brace. -/
def isClosingToken (t : Tree) : Bool :=
  t.children.isEmpty && t.info.isClosing && t.info.stop == t.info.start + 1

/-- Whether a node has no braces among its children, or starts with one and ends with another. -/
def isPaired (t : Tree) : Bool :=
  t.children.all (!·.isBraceToken) ||
    match t.children with
    | [] => true
    | o :: rest =>
      o.children.isEmpty && o.info.isOpening && o.info.start == t.info.start &&
        rest.dropLast.all (!·.isBraceToken) &&
        rest.getLast?.any fun z => z.isClosingToken && z.info.stop == t.info.stop

/-- The tokens of a node are two braces and what is between them. -/
structure IsBraced (t : Tree) (o z : Info) (inner : List Tree) : Prop where
  tokens : t.tokens = o :: (inner.flatMap tokens ++ [z])
  inner : ∀ c ∈ inner, c ∈ t.children ∧ c.isBraceToken = false
  opening : o.isOpening = true
  closing : z.isClosing = true
  start : o.start = t.info.start
  stop : z.stop = t.info.stop
  width : z.stop = z.start + 1

/-- A node has no braces among its children, or it is braced and its first child is a brace. -/
theorem isBraced_of_isPaired {t : Tree} (h : t.isPaired = true) :
    (∀ c ∈ t.children, c.isBraceToken = false) ∨
      ∃ o z inner, t.children.head? = some o ∧ t.IsBraced o.info z inner := by
  rcases Bool.or_eq_true_iff.mp h with hnone | hpair
  · exact Or.inl fun c hc => by simpa using List.all_eq_true.mp hnone c hc
  · cases hc : t.children with
    | nil => exact Or.inl fun c hc => absurd hc List.not_mem_nil
    | cons o rest =>
      rw [hc] at hpair
      simp only [Bool.and_eq_true, List.isEmpty_iff, beq_iff_eq] at hpair
      obtain ⟨⟨⟨⟨hleaf, hopening⟩, hstart⟩, hinner⟩, hlast⟩ := hpair
      obtain ⟨z, hz, hclosing⟩ := (Option.any_eq_true _ _).mp hlast
      simp only [isClosingToken, Bool.and_eq_true, List.isEmpty_iff, beq_iff_eq] at hclosing
      obtain ⟨⟨⟨hzleaf, hclosing⟩, hwidth⟩, hstop⟩ := hclosing
      have hrest : rest = rest.dropLast ++ [z] := (List.dropLast_append_getLast? z hz).symm
      have hne : t.children ≠ [] := by simp [hc]
      refine Or.inr ⟨o, z.info, rest.dropLast, by simp, ?_, ?_, hopening, hclosing, hstart, hstop,
        hwidth⟩
      · have hztokens : [z].flatMap tokens = [z.info] := by
          rw [List.flatMap_singleton, tokens_of_leaf hzleaf]
        rw [tokens_of_ne_nil hne, hc, List.flatMap_cons, tokens_of_leaf hleaf,
          List.singleton_append, ← hztokens, ← List.flatMap_append, ← hrest]
      · intro c hcinner
        refine ⟨?_, by simpa using List.all_eq_true.mp hinner c hcinner⟩
        rw [hc]
        exact List.mem_cons_of_mem _ (List.dropLast_subset rest hcinner)

/-- **The tokens of a node open and close braces in turn.** -/
theorem isBalanced_tokens {t : Tree} (h : ∀ u ∈ t.nodes, u.isPaired = true)
    (ht : t.isBraceToken = false) : IsBalanced t.tokens := by
  induction t using children_induction with
  | h t ih =>
    have hbelow : ∀ c ∈ t.children, c.isBraceToken = false → IsBalanced c.tokens := fun c hc =>
      ih c hc fun u hu => h u (mem_nodes_of_mem_children hc hu)
    by_cases hleaf : t.children = []
    · rw [tokens_of_leaf hleaf]
      refine .singleton ?_
      rw [isBraceToken, hleaf] at ht
      simpa using ht
    · rcases isBraced_of_isPaired (h t t.mem_nodes_self) with hnone | ⟨o, z, inner, -, hb⟩
      · rw [tokens_of_ne_nil hleaf]
        exact .flatMap fun c hc => hbelow c hc (hnone c hc)
      · rw [hb.tokens]
        refine (IsBalanced.flatMap fun c hc => ?_).wrap hb.opening hb.closing
        exact hbelow c (hb.inner c hc).1 (hb.inner c hc).2

/-- A node that starts with a brace is braced. -/
theorem exists_isBraced {t o : Tree} (h : t.isPaired = true) (ho : t.children.head? = some o)
    (hbrace : o.isBraceToken = true) : ∃ z inner, t.IsBraced o.info z inner := by
  rcases isBraced_of_isPaired h with hnone | ⟨o', z, inner, ho', hb⟩
  · rw [hnone o (List.mem_of_head? ho)] at hbrace
    cases hbrace
  · obtain rfl : o = o' := Option.some.inj (ho.symm.trans ho')
    exact ⟨z, inner, hb⟩

namespace IsBraced

variable {t u : Tree} {o z : Info} {inner : List Tree}

/-- What is between the braces opens and closes braces in turn. -/
theorem isBalanced_inner (hb : t.IsBraced o z inner) (h : ∀ u ∈ t.nodes, u.isPaired = true) :
    IsBalanced (inner.flatMap Tree.tokens) :=
  .flatMap fun c hc => isBalanced_tokens
    (fun u hu => h u (nodes_subset_of_mem_children (hb.inner c hc).1 hu)) (hb.inner c hc).2

/-- The tokens of a tree are those of a braced node, with others before and after. -/
theorem exists_tokens_eq (hb : u.IsBraced o z inner) (hu : u ∈ t.nodes) :
    ∃ before after,
      t.tokens = before ++ o :: (inner.flatMap Tree.tokens ++ z :: after) := by
  obtain ⟨before, after, htokens⟩ := tokens_infix hu
  refine ⟨before, after, ?_⟩
  rw [← htokens, hb.tokens]
  simp

end IsBraced

end Tree

/-! ## 5. A text between two braces -/

/-- The tokens that start in a part of the text. -/
def tokensFrom (start stop : Nat) (tokens : List Info) : List Info :=
  tokens.filter fun i => start ≤ i.start && i.start < stop

theorem tokensFrom_append (start stop : Nat) (l m : List Info) :
    tokensFrom start stop (l ++ m) = tokensFrom start stop l ++ tokensFrom start stop m :=
  List.filter_append l m

/-- Tokens that start elsewhere are left out. -/
theorem tokensFrom_eq_nil {start stop : Nat} {l : List Info}
    (h : ∀ i ∈ l, i.start < start ∨ stop ≤ i.start) : tokensFrom start stop l = [] := by
  refine List.filter_eq_nil_iff.mpr fun i hi => ?_
  have := h i hi
  simp only [Bool.and_eq_true, decide_eq_true_eq]
  omega

/-- Of tokens in order, those that start before a place are the first ones. -/
theorem filter_prefix_of_sorted {l : List Info} (h : l.Pairwise fun i j => i.start ≤ j.start)
    (stop : Nat) : l.filter (fun i => i.start < stop) <+: l := by
  induction l with
  | nil => exact List.prefix_refl _
  | cons i l ih =>
    obtain ⟨hi, hl⟩ := List.pairwise_cons.mp h
    rw [List.filter_cons]
    split
    · exact (List.prefix_cons_inj i).mpr (ih hl)
    · rename_i hlt
      have hnone : l.filter (fun i => i.start < stop) = [] := by
        refine List.filter_eq_nil_iff.mpr fun j hj => ?_
        have := hi j hj
        simp only [decide_eq_true_eq] at hlt ⊢
        omega
      rw [hnone]
      exact List.nil_prefix

section Between

/-! Tokens in order: some, an opening brace, those behind it, a closing brace, and others. -/

variable {before inner after : List Info} {o z : Info} {start stop : Nat}
  (hranges : ∀ i ∈ before ++ o :: (inner ++ z :: after), i.start ≤ i.stop)
  (hsorted : (before ++ o :: (inner ++ z :: after)).Pairwise fun i j => i.stop ≤ j.start)

include hranges hsorted

/-- What is behind the opening brace starts neither with it nor before it. -/
theorem tokensFrom_between (hstart : o.start < start) :
    tokensFrom start stop (before ++ o :: (inner ++ z :: after)) =
      tokensFrom start stop inner ++ tokensFrom start stop (z :: after) := by
  obtain ⟨-, -, hbefore⟩ := List.pairwise_append.mp hsorted
  have hnone : tokensFrom start stop (before ++ [o]) = [] := by
    refine tokensFrom_eq_nil fun i hi => Or.inl ?_
    rcases List.mem_append.mp hi with hi | hi
    · have hi₁ := hranges i (List.mem_append_left _ hi)
      have hi₂ := hbefore i hi o List.mem_cons_self
      omega
    · rwa [List.mem_singleton.mp hi]
  rw [List.append_cons, tokensFrom_append, hnone, List.nil_append, tokensFrom_append]

/-- What is before the closing brace starts neither with it nor behind it. -/
theorem tokensFrom_after_eq_nil (hstop : stop ≤ z.start) :
    tokensFrom start stop (z :: after) = [] := by
  obtain ⟨-, hrest, -⟩ := List.pairwise_append.mp hsorted
  obtain ⟨-, hrest⟩ := List.pairwise_cons.mp hrest
  obtain ⟨-, hrest, -⟩ := List.pairwise_append.mp hrest
  obtain ⟨hafter, -⟩ := List.pairwise_cons.mp hrest
  refine tokensFrom_eq_nil fun i hi => Or.inr ?_
  rcases List.mem_cons.mp hi with rfl | hi
  · exact hstop
  · have hz₁ := hranges z (by simp)
    have hz₂ := hafter i hi
    omega

/-- Of what starts between the braces nothing stands outside. -/
theorem tokensFrom_braced (hstart : o.start < start) (hstop : stop ≤ z.start) :
    tokensFrom start stop (before ++ o :: (inner ++ z :: after)) =
      tokensFrom start stop (o :: (inner ++ [z])) := by
  have hclosing : tokensFrom start stop [z] = [] :=
    tokensFrom_eq_nil fun i hi => Or.inr (List.mem_singleton.mp hi ▸ hstop)
  have hopening : tokensFrom start stop [o] = [] :=
    tokensFrom_eq_nil fun i hi => Or.inl (List.mem_singleton.mp hi ▸ hstart)
  rw [tokensFrom_between hranges hsorted hstart, tokensFrom_after_eq_nil hranges hsorted hstop,
    ← List.singleton_append, tokensFrom_append, tokensFrom_append, hopening, hclosing]
  rfl

omit hranges in
/-- Of what is inside, what starts in the text are the first tokens. -/
theorem tokensFrom_inner (ho : start ≤ o.stop) :
    tokensFrom start stop inner = inner.filter fun i => i.start < stop := by
  obtain ⟨-, hrest, -⟩ := List.pairwise_append.mp hsorted
  obtain ⟨hbehind, -⟩ := List.pairwise_cons.mp hrest
  refine List.filter_congr fun i hi => ?_
  have hi := hbehind i (List.mem_append_left _ hi)
  rw [decide_eq_true (Nat.le_trans ho hi), Bool.true_and]

/-- A text that is put between braces stays between them exactly if it never closes more braces than
it has opened. -/
theorem staysInside_tokensFrom_iff (hinner : IsBalanced inner) (hz : z.isClosing = true)
    (hstart : o.start < start) (ho : start ≤ o.stop) :
    StaysInside (tokensFrom start stop (before ++ o :: (inner ++ z :: after))) ↔
      stop ≤ z.start := by
  rw [tokensFrom_between hranges hsorted hstart]
  obtain ⟨-, hrest, -⟩ := List.pairwise_append.mp hsorted
  obtain ⟨hbehind, hrest⟩ := List.pairwise_cons.mp hrest
  obtain ⟨hin, -, hlast⟩ := List.pairwise_append.mp hrest
  have hrange : ∀ i ∈ inner, i.start ≤ i.stop := fun i hi => hranges i (by simp [hi])
  constructor
  · intro hstays
    by_contra hlt
    -- the closing brace starts in the text, behind all that is inside
    have hall : tokensFrom start stop inner = inner := by
      refine List.filter_eq_self.mpr fun i hi => ?_
      have hi₁ := hbehind i (List.mem_append_left _ hi)
      have hi₂ := hrange i hi
      have hi₃ := hlast i hi z List.mem_cons_self
      simp only [Bool.and_eq_true, decide_eq_true_eq]
      omega
    have hclosing : tokensFrom start stop [z] = [z] := by
      refine List.filter_eq_self.mpr fun i hi => ?_
      rw [List.mem_singleton.mp hi]
      have hz₁ := hbehind z (by simp)
      simp only [Bool.and_eq_true, decide_eq_true_eq]
      omega
    have hfirst : inner ++ [z] <+:
        tokensFrom start stop inner ++ tokensFrom start stop ([z] ++ after) := by
      rw [tokensFrom_append, hall, hclosing, ← List.append_assoc]
      exact List.prefix_append _ _
    have hclosed := hstays.depth_nonneg hfirst
    rw [braceDepth_append, hinner.closed, braceDepth_cons, Info.turn_of_isClosing hz,
      braceDepth_nil] at hclosed
    omega
  · intro hle
    rw [tokensFrom_after_eq_nil hranges hsorted hle, List.append_nil,
      tokensFrom_inner hsorted ho]
    refine hinner.inside.of_prefix (filter_prefix_of_sorted ?_ stop)
    exact hin.imp_of_mem fun {i j} hi _ hij => Nat.le_trans (hrange i hi) hij

/-- **A text that is put between braces stays between them** exactly if it opens and closes braces
in turn.  Behind the text there are to be no other braces before the closing one. -/
theorem isBalanced_tokensFrom_iff (hinner : IsBalanced inner) (hz : z.isClosing = true)
    (hstart : o.start < start) (ho : start ≤ o.stop)
    (hother : stop ≤ z.start → ∀ i ∈ inner, i.isBrace = true → i.start < stop) :
    IsBalanced (tokensFrom start stop (before ++ o :: (inner ++ z :: after))) ↔
      stop ≤ z.start := by
  have hstays : StaysInside (tokensFrom start stop (before ++ o :: (inner ++ z :: after))) ↔
      stop ≤ z.start := staysInside_tokensFrom_iff hranges hsorted hinner hz hstart ho
  refine ⟨fun h => hstays.mp h.inside, fun hle => ⟨hstays.mpr hle, ?_⟩⟩
  rw [tokensFrom_between hranges hsorted hstart, tokensFrom_after_eq_nil hranges hsorted hle,
    List.append_nil, tokensFrom_inner hsorted ho, braceDepth_filter, hinner.closed]
  exact fun i hi hbrace => decide_eq_true (hother hle i hi hbrace)

end Between

end CodeDiagram.Syntax
