/-
# Members inside the wrapper

Members that stand alone are read inside a wrapper class, and the body of the first declaration is
then the visible root.  That is the body of the wrapper, and it has the whole text in it exactly if
the text opens and closes braces in turn (`parse_wrapped_encloses_iff`).  A text that closes more
than it has opened closes the wrapper itself, and what comes after that is left out
(`escaping_left_out`).

A grammar is known by its answers only, so what the grammar of the language keeps to is assumed of
the tree that it answers (`IsWrapperTree`).
-/
import CodeDiagram.FrontEnd.Java
import CodeDiagram.Proofs.Syntax.Braces
import CodeDiagram.Syntax.Recorded

namespace CodeDiagram.Java

open Syntax

/-! ## 1. Trees of wrapped texts -/

/-- The byte at which the wrapper opens its body; a line feed follows, and then the text. -/
def wrapperBrace : Nat := 18

/-- The first byte of the text in the wrapper. -/
def textStart : Nat := wrapperHead.utf8ByteSize

/-- The byte behind the text in the wrapper. -/
def textStop (source : String) : Nat := textStart + (Text.normalize source).utf8ByteSize

/-- The body of the first declaration of a tree. -/
def firstBody? (t : Tree) : Option Node :=
  (⟨t, none⟩ : Node).namedChildren.head?.bind (·.field? "body")

/-- What the grammar of the language keeps to when it reads a wrapped text without a fault. -/
structure IsWrapperTree (text : String) (t : Tree) : Prop where
  /-- The children of a node are inside it, one after the other. -/
  laidOut : ∀ u ∈ t.nodes, u.IsLaidOut
  /-- Braces are the first and the last child of what they are around. -/
  paired : ∀ u ∈ t.nodes, u.isPaired = true
  /-- Braces are where the text has them. -/
  read : ∀ i ∈ t.tokens, i.isBrace = true → i.IsReadIn text
  /-- The head of the wrapper starts a declaration, and its brace the body of that. -/
  opens : ∃ body o, firstBody? t = some body ∧ body.tree.children.head? = some o ∧
    o.isBraceToken = true ∧ o.info.start = wrapperBrace ∧ o.info.stop = wrapperBrace + 1

/-- The tokens behind the brace of the wrapper and before the end of the text. -/
def textTokens (source : String) (t : Tree) : List Info :=
  tokensFrom (wrapperBrace + 1) (textStop source) t.tokens

/-- Behind the text there is one brace in the wrapper. -/
theorem start_eq_of_isReadIn_wrap {i : Info} {text : String} (h : i.IsReadIn (wrap text))
    (hbrace : i.isBrace = true) (hle : textStart + text.utf8ByteSize ≤ i.start) :
    i.start = textStart + text.utf8ByteSize + 1 := by
  obtain ⟨-, b, hb, hbyte⟩ := h.brace hbrace
  obtain ⟨k, hk⟩ := Nat.exists_eq_add_of_le hle
  have hsize : (wrapperHead ++ text).toByteArray.data.size = textStart + text.utf8ByteSize := by
    rw [textStart, ← String.utf8ByteSize_append]
    rfl
  rw [wrap, String.toByteArray_append, ByteArray.data_append, hk, ← hsize,
    Array.getElem?_append_right (Nat.le_add_right _ _), Nat.add_sub_cancel_left] at hbyte
  have honly : ∀ k < wrapperTail.toByteArray.data.size, ∀ b ∈ Info.braceBytes,
      wrapperTail.toByteArray.data[k]? = some b → k = 1 := by decide +kernel
  rw [hk, honly k (Array.getElem?_eq_some_iff.mp hbyte).1 b hb hbyte]

/-- Before a brace that is behind the text no other is behind the text. -/
theorem lt_of_isReadIn_wrap {i z : Info} {text : String} (hi : i.IsReadIn (wrap text))
    (hz : z.IsReadIn (wrap text)) (hibrace : i.isBrace = true) (hzbrace : z.isBrace = true)
    (hiz : i.stop ≤ z.start) (hbehind : textStart + text.utf8ByteSize ≤ z.start) :
    i.start < textStart + text.utf8ByteSize := by
  by_contra hle
  have hsame : i.start = z.start :=
    (start_eq_of_isReadIn_wrap hi hibrace (Nat.le_of_not_lt hle)).trans
      (start_eq_of_isReadIn_wrap hz hzbrace hbehind).symm
  have hlt := (hi.brace hibrace).1
  omega

/-! ## 2. The visible root -/

/-- The document of a text in the wrapper. -/
def wrappedDocument (grammar : Grammar) (text : String) : Document where
  language := .java
  text := wrap text
  tree := grammar (wrap text)
  lineOffset := 1
  wrapped := true

@[simp] theorem wrapped_wrappedDocument (grammar : Grammar) (text : String) :
    (wrappedDocument grammar text).wrapped = true := rfl

/-- A document that was read in the wrapper is that of the normalized text. -/
theorem parse_eq_ok_wrapped {grammar : Grammar} {source : String} {d : Document}
    (h : parse grammar source = .ok d) (hwrapped : d.wrapped = true) :
    d = wrappedDocument grammar (Text.normalize source) := by
  unfold parse at h
  dsimp only at h
  split at h
  · obtain rfl := Except.ok.inj h
    cases hwrapped
  · split at h
    · rename_i tree hread
      obtain rfl := Except.ok.inj h
      unfold Grammar.read at hread
      dsimp only at hread
      split at hread
      · cases hread
      · rw [wrappedDocument, Except.ok.inj hread]
    · cases h

theorem root_of_wrapped {d : Document} (hwrapped : d.wrapped = true) {body : Node}
    (h : firstBody? d.tree = some body) : d.root = body := by
  rw [firstBody?] at h
  rw [Document.root, hwrapped, if_pos rfl, h]
  rfl

theorem mem_nodes_of_firstBody? {t : Tree} {body : Node} (h : firstBody? t = some body) :
    body.tree ∈ t.nodes := by
  obtain ⟨decl, hdecl, hbody⟩ := Option.bind_eq_some_iff.mp h
  have below : ∀ {n m : Node}, m ∈ n.children → m.tree ∈ n.tree.children := by
    intro n m hm
    obtain ⟨c, hc, rfl⟩ := List.mem_map.mp hm
    exact hc
  have hdecl := below (Node.mem_children_of_mem_namedChildren (List.mem_of_head? hdecl))
  have hbody := below (Node.mem_children_of_field? hbody)
  exact Tree.mem_nodes_of_mem_children hdecl (Tree.mem_nodes_of_mem_children hbody
    body.tree.mem_nodes_self)

section Body

/-! A tree of a wrapped text, and in it the node that the brace of the wrapper opens. -/

variable {source : String} {t u : Tree} {o z : Info} {inner : List Tree}
  (htree : IsWrapperTree (wrap (Text.normalize source)) t) (hu : u ∈ t.nodes)
  (hbraced : u.IsBraced o z inner) (hstart : o.start = wrapperBrace)

include htree hu hbraced hstart

/-- The brace that the text does not close itself is closed behind it. -/
theorem isBalanced_textTokens_iff (hstop : o.stop = wrapperBrace + 1) :
    IsBalanced (textTokens source t) ↔ textStop source ≤ z.start := by
  obtain ⟨before, after, hsplit⟩ := hbraced.exists_tokens_eq hu
  have hinner := hbraced.isBalanced_inner fun v hv =>
    htree.paired v (Tree.nodes_subset_of_mem_nodes hu hv)
  have hranges := fun i hi => (Tree.tokens_within htree.laidOut i hi).2.1
  have hsorted := Tree.tokens_sorted htree.laidOut
  have hread := htree.read
  rw [hsplit] at hranges hsorted hread
  have hother : textStop source ≤ z.start →
      ∀ i ∈ inner.flatMap Tree.tokens, i.isBrace = true → i.start < textStop source := by
    intro hz i hi hibrace
    have hzbrace : z.isBrace = true := Bool.or_eq_true_iff.mpr (Or.inr hbraced.closing)
    obtain ⟨-, hrest, -⟩ := List.pairwise_append.mp hsorted
    obtain ⟨-, -, hlast⟩ := List.pairwise_append.mp (List.pairwise_cons.mp hrest).2
    exact lt_of_isReadIn_wrap (hread i (by simp [hi]) hibrace) (hread z (by simp) hzbrace)
      hibrace hzbrace (hlast i hi z List.mem_cons_self) hz
  rw [textTokens, hsplit]
  exact isBalanced_tokensFrom_iff hranges hsorted hinner hbraced.closing
    (hstart ▸ Nat.lt_succ_self _) (Nat.le_of_eq hstop.symm) hother

/-- If it is closed behind the text, all tokens of the text are in the node. -/
theorem textTokens_eq_of_le (hle : textStop source ≤ z.start) :
    textTokens source t = textTokens source u := by
  obtain ⟨before, after, hsplit⟩ := hbraced.exists_tokens_eq hu
  have hranges := fun i hi => (Tree.tokens_within htree.laidOut i hi).2.1
  have hsorted := Tree.tokens_sorted htree.laidOut
  rw [hsplit] at hranges hsorted
  rw [textTokens, textTokens, hsplit, hbraced.tokens]
  exact tokensFrom_braced hranges hsorted (hstart ▸ Nat.lt_succ_self _) hle

omit htree hu in
/-- It is closed behind the text exactly if the node has the whole text in it. -/
theorem encloses_iff :
    u.info.start < textStart ∧ textStop source < u.info.stop ↔ textStop source ≤ z.start := by
  have hbefore : u.info.start = wrapperBrace := hbraced.start.symm.trans hstart
  have hbehind : u.info.stop = z.start + 1 := hbraced.stop.symm.trans hbraced.width
  have hhead : wrapperBrace < textStart := by decide +kernel
  rw [hbefore, hbehind]
  omega

end Body

/-- **The visible root has the whole text in it** exactly if the text opens and closes braces in
turn.  Then all that the tree has of the text is in the visible root. -/
theorem parse_wrapped_encloses_iff {grammar : Grammar} {source : String} {d : Document}
    (h : parse grammar source = .ok d) (hwrapped : d.wrapped = true)
    (htree : IsWrapperTree d.text d.tree) :
    d.text = wrapperHead ++ Text.normalize source ++ wrapperTail ∧
      (d.root.start < textStart ∧ textStop source < d.root.stop ↔
        IsBalanced (textTokens source d.tree)) ∧
      (IsBalanced (textTokens source d.tree) →
        textTokens source d.tree = textTokens source d.root.tree) := by
  have htext : d.text = wrap (Text.normalize source) := by
    rw [parse_eq_ok_wrapped h hwrapped, wrappedDocument]
  rw [htext] at htree
  -- the visible root is what is between the brace of the wrapper and the brace that closes it
  obtain ⟨body, o, hbody, ho, hbrace, hstart, hstop⟩ := htree.opens
  have hmem := mem_nodes_of_firstBody? hbody
  obtain ⟨z, inner, hbraced⟩ := Tree.exists_isBraced (htree.paired _ hmem) ho hbrace
  have hbalanced := isBalanced_textTokens_iff htree hmem hbraced hstart hstop
  rw [root_of_wrapped hwrapped hbody]
  refine ⟨htext, (encloses_iff hbraced hstart).trans hbalanced.symm, fun htokens => ?_⟩
  exact textTokens_eq_of_le htree hmem hbraced hstart (hbalanced.mp htokens)

/-! ## 3. Two texts -/

/-- The text of a constructor and a comment. -/
def constructorText : String := "Foo(int a) \x7b\x7d\n// comment\n"

/-- What the grammar answers for that text, alone and in the wrapper. -/
def constructorGrammar : Grammar := .recorded constructorText [
  (Tree.ofRecords? [
    ⟨0, "program", 8, 0, 25, none⟩, ⟨1, "ERROR", 12, 0, 10, none⟩,
    ⟨2, "method_invocation", 8, 0, 10, none⟩, ⟨3, "identifier", 0, 0, 3, "name"⟩,
    ⟨3, "argument_list", 8, 3, 10, "arguments"⟩, ⟨4, "(", 1, 3, 4, none⟩,
    ⟨4, "ERROR", 12, 4, 7, none⟩, ⟨5, "integral_type", 0, 4, 7, none⟩, ⟨6, "int", 1, 4, 7, none⟩,
    ⟨4, "identifier", 0, 8, 9, none⟩, ⟨4, ")", 1, 9, 10, none⟩, ⟨1, "block", 0, 11, 13, none⟩,
    ⟨2, "\x7b", 1, 11, 12, none⟩, ⟨2, "\x7d", 1, 12, 13, none⟩,
    ⟨1, "line_comment", 0, 14, 24, none⟩]).getD default,
  (Tree.ofRecords? [
    ⟨0, "program", 0, 0, 48, none⟩, ⟨1, "class_declaration", 0, 0, 47, none⟩,
    ⟨2, "class", 1, 0, 5, none⟩, ⟨2, "identifier", 0, 6, 17, "name"⟩,
    ⟨2, "class_body", 0, 18, 47, "body"⟩, ⟨3, "\x7b", 1, 18, 19, none⟩,
    ⟨3, "constructor_declaration", 0, 20, 33, none⟩, ⟨4, "identifier", 0, 20, 23, "name"⟩,
    ⟨4, "formal_parameters", 0, 23, 30, "parameters"⟩, ⟨5, "(", 1, 23, 24, none⟩,
    ⟨5, "formal_parameter", 0, 24, 29, none⟩, ⟨6, "integral_type", 0, 24, 27, "type"⟩,
    ⟨7, "int", 1, 24, 27, none⟩, ⟨6, "identifier", 0, 28, 29, "name"⟩, ⟨5, ")", 1, 29, 30, none⟩,
    ⟨4, "constructor_body", 0, 31, 33, "body"⟩, ⟨5, "\x7b", 1, 31, 32, none⟩,
    ⟨5, "\x7d", 1, 32, 33, none⟩, ⟨3, "line_comment", 0, 34, 44, none⟩,
    ⟨3, "\x7d", 1, 46, 47, none⟩]).getD default]

/-- The constructor and the comment are in the visible root. -/
theorem parse_wrapped_encloses_iff_constructor :
    ∃ d, parse constructorGrammar constructorText = .ok d ∧ d.wrapped = true ∧
      IsWrapperTree d.text d.tree ∧ d.root.start < textStart ∧
      textStop constructorText < d.root.stop := by
  have hparse : parse constructorGrammar constructorText =
      .ok (wrappedDocument constructorGrammar constructorText) := rfl
  have htree : IsWrapperTree (wrap constructorText)
      (constructorGrammar (wrap constructorText)) :=
    ⟨by decide +kernel, by decide +kernel, by decide +kernel, _, _, rfl, rfl, rfl, rfl, rfl⟩
  obtain ⟨-, hencloses, -⟩ := parse_wrapped_encloses_iff hparse rfl htree
  have hbalanced : IsBalanced
      (textTokens constructorText (constructorGrammar (wrap constructorText))) := by
    decide +kernel
  exact ⟨_, hparse, rfl, htree, hencloses.mpr hbalanced⟩

/-- The text of a brace too many, and of a class that is not closed. -/
def escapingText : String := "\x7d class B \x7b"

/-- What the grammar answers for that text, alone and in the wrapper. -/
def escapingGrammar : Grammar := .recorded escapingText [
  (Tree.ofRecords? [
    ⟨0, "program", 8, 0, 11, none⟩, ⟨1, "ERROR", 12, 0, 11, none⟩, ⟨2, "\x7d", 1, 0, 1, none⟩,
    ⟨2, "class", 1, 2, 7, none⟩, ⟨2, "identifier", 0, 8, 9, none⟩,
    ⟨2, "\x7b", 1, 10, 11, none⟩]).getD default,
  (Tree.ofRecords? [
    ⟨0, "program", 0, 0, 34, none⟩, ⟨1, "class_declaration", 0, 0, 21, none⟩,
    ⟨2, "class", 1, 0, 5, none⟩, ⟨2, "identifier", 0, 6, 17, "name"⟩,
    ⟨2, "class_body", 0, 18, 21, "body"⟩, ⟨3, "\x7b", 1, 18, 19, none⟩,
    ⟨3, "\x7d", 1, 20, 21, none⟩, ⟨1, "class_declaration", 0, 22, 33, none⟩,
    ⟨2, "class", 1, 22, 27, none⟩, ⟨2, "identifier", 0, 28, 29, "name"⟩,
    ⟨2, "class_body", 0, 30, 33, "body"⟩, ⟨3, "\x7b", 1, 30, 31, none⟩,
    ⟨3, "\x7d", 1, 32, 33, none⟩]).getD default]

/-- The text closes the wrapper and opens a class that the wrapper closes: it is read without a
fault, and the class is not in the visible root. -/
theorem escaping_left_out :
    ∃ d, parse escapingGrammar escapingText = .ok d ∧ d.wrapped = true ∧
      IsWrapperTree d.text d.tree ∧ d.root.stop = 21 ∧ textStop escapingText = 31 ∧
      ¬ (d.root.start ≤ textStart ∧ textStop escapingText ≤ d.root.stop) := by
  have htree : IsWrapperTree (wrap escapingText) (escapingGrammar (wrap escapingText)) :=
    ⟨by decide +kernel, by decide +kernel, by decide +kernel, _, _, rfl, rfl, rfl, rfl, rfl⟩
  have hstop : textStop escapingText = 31 := by decide +kernel
  have hroot : (wrappedDocument escapingGrammar escapingText).root.stop = 21 := by decide +kernel
  refine ⟨wrappedDocument escapingGrammar escapingText, rfl, rfl, htree, hroot, hstop, ?_⟩
  rintro ⟨-, hwithin⟩
  rw [hroot, hstop] at hwithin
  exact absurd hwithin (by decide)

end CodeDiagram.Java
