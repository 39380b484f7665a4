/-
# Where the lines of a document are

The text that a grammar reads is the normalized one, or that text moved left, or that text inside a
wrapper.  In each case a place of it comes from a place of the normalized text (`place?`), except
for what only the wrapper has, and the line of a node is that of the place where it comes from
(`parse_countsLines`).

* In the wrapper the text starts behind one line feed, and one line is not counted.
* In the text that was moved left every line has kept its number (`Text.breaksBefore_dedent`).
-/
import CodeDiagram.FrontEnd.Registry
import CodeDiagram.Proofs.FrontEnd.Wrapping
import CodeDiagram.Proofs.Text.Breaks

namespace CodeDiagram

open Syntax Text

/-! ## 1. Texts that are read -/

/-- A text that makes sense alone is read as it is. -/
theorem Java.parse_eq_ok_alone {grammar : Grammar} {source : String} {d : Document}
    (h : Java.parse grammar source = .ok d) (halone : d.wrapped = false) :
    d.text = normalize source ∧ d.lineOffset = 0 := by
  unfold Java.parse at h
  dsimp only at h
  split at h
  · obtain rfl := Except.ok.inj h
    exact ⟨rfl, rfl⟩
  · split at h
    · obtain rfl := Except.ok.inj h
      cases halone
    · cases h

/-- A text is read as it is or moved left. -/
theorem Python.parse_eq_ok {grammar : Grammar} {source : String} {d : Document}
    (h : Python.parse grammar source = .ok d) : d.wrapped = false ∧ d.lineOffset = 0 ∧
      (d.text = normalize source ∨
        d.text = dedent (normalize source) ∧ dedent (normalize source) ≠ normalize source) := by
  unfold Python.parse at h
  dsimp only at h
  split at h
  · obtain rfl := Except.ok.inj h
    exact ⟨rfl, rfl, Or.inl rfl⟩
  · split at h
    · cases h
    · rename_i hmoved
      split at h
      · obtain rfl := Except.ok.inj h
        exact ⟨rfl, rfl, Or.inr ⟨rfl, hmoved⟩⟩
      · cases h

/-! ## 2. Places -/

/-- The place of the normalized text that a place of the text that was read comes from.  What the
wrapper has around the text comes from nowhere. -/
def place? (source : String) (d : Document) (k : Nat) : Option Nat :=
  if d.wrapped then
    if Java.textStart ≤ k ∧ k ≤ Java.textStop source then some (k - Java.textStart) else none
  else if d.text = normalize source then some k
  else some (undedented (normalize source) k)

/-- Lines are counted in the normalized text of a source. -/
structure CountsLines (source : String) (d : Document) : Prop where
  /-- The text that was read is that text, alone, in the wrapper or moved left. -/
  text : d.text = normalize source ∧ d.wrapped = false ∨
    d.text = Java.wrap (normalize source) ∧ d.wrapped = true ∨
    d.text = dedent (normalize source) ∧ d.wrapped = false
  /-- What stands at a place is what stands where that comes from. -/
  byte : ∀ i k b, place? source d i = some k → d.text.toUTF8[i]? = some b → b ≠ lineFeed →
    (normalize source).toUTF8[k]? = some b
  positive : ∀ n, 1 ≤ d.line n
  line : ∀ n k, place? source d n.start = some k →
    d.line n = breaksBefore (normalize source) k + 1

/-- Without a wrapper, lines are counted from the start of the text. -/
theorem Syntax.Document.line_of_lineOffset {d : Document} (h : d.lineOffset = 0) (n : Node) :
    d.line n = breaksBefore d.text n.start + 1 := by
  rw [Document.line, h, Nat.sub_zero]
  exact Nat.max_eq_right (Nat.le_add_left _ _)

/-- A text that was read as it is counts its own lines. -/
theorem countsLines_of_text {source : String} {d : Document} (htext : d.text = normalize source)
    (halone : d.wrapped = false) (hoffset : d.lineOffset = 0) : CountsLines source d := by
  have hplace : ∀ i k, place? source d i = some k → i = k := by
    intro i k hk
    rw [place?, halone, if_neg Bool.false_ne_true, if_pos htext] at hk
    exact Option.some.inj hk
  refine ⟨Or.inl ⟨htext, halone⟩, ?_, fun n => Nat.le_max_left _ _, ?_⟩
  · rintro i k b hk hb -
    rwa [← hplace i k hk, ← htext]
  · intro n k hk
    rw [Document.line_of_lineOffset hoffset, htext, hplace _ _ hk]

/-- A text that was moved left counts the lines of the text before. -/
theorem countsLines_of_dedent {source : String} {d : Document}
    (htext : d.text = dedent (normalize source))
    (hmoved : dedent (normalize source) ≠ normalize source)
    (halone : d.wrapped = false) (hoffset : d.lineOffset = 0) : CountsLines source d := by
  have hplace : ∀ i k, place? source d i = some k → undedented (normalize source) i = k := by
    intro i k hk
    rw [place?, halone, if_neg Bool.false_ne_true, if_neg (htext ▸ hmoved)] at hk
    exact Option.some.inj hk
  refine ⟨Or.inr (Or.inr ⟨htext, halone⟩), ?_, fun n => Nat.le_max_left _ _, ?_⟩
  · intro i k b hk hb hne
    rw [htext] at hb
    rw [← hplace i k hk]
    exact getElem?_dedent hmoved hb hne
  · intro n k hk
    rw [Document.line_of_lineOffset hoffset, htext, breaksBefore_dedent hmoved, hplace _ _ hk]

/-! ## 3. The wrapper -/

theorem Java.bytes_wrap (text : String) : bytes (Java.wrap text).toList =
    bytes Java.wrapperHead.toList ++ (bytes text.toList ++ bytes Java.wrapperTail.toList) := by
  rw [Java.wrap, String.toList_append, String.toList_append, bytes_append, bytes_append,
    List.append_assoc]

/-- A byte of the text stands in the wrapper behind the head. -/
theorem Java.getElem?_wrap {text : String} {j : Nat} {b : UInt8} (hle : j ≤ text.utf8ByteSize)
    (hb : (Java.wrap text).toUTF8[Java.textStart + j]? = some b) (hne : b ≠ lineFeed) :
    text.toUTF8[j]? = some b := by
  rw [getElem?_toUTF8, Java.bytes_wrap, Java.textStart, ← length_bytes,
    List.getElem?_append_right (Nat.le_add_right _ _), Nat.add_sub_cancel_left] at hb
  rw [← length_bytes] at hle
  rcases Nat.lt_or_eq_of_le hle with hlt | rfl
  · rwa [List.getElem?_append_left hlt, ← getElem?_toUTF8] at hb
  · -- the tail starts with a line feed
    rw [List.getElem?_append_right (Nat.le_refl _), Nat.sub_self] at hb
    exact absurd (Option.some.inj hb).symm hne

/-- The head has one line feed. -/
theorem Java.breaksBefore_wrap {text : String} {j : Nat} (hle : j ≤ text.utf8ByteSize) :
    breaksBefore (Java.wrap text) (Java.textStart + j) = breaksBefore text j + 1 := by
  have hhead : (bytes Java.wrapperHead.toList).count lineFeed = 1 := by decide +kernel
  rw [← length_bytes] at hle
  rw [breaksBefore_eq_count, breaksBefore_eq_count, Java.bytes_wrap, Java.textStart,
    ← length_bytes, List.take_length_add_append, List.count_append, hhead,
    List.take_append_of_le_length hle, Nat.add_comm]

/-- A text in the wrapper counts its own lines and not that of the head. -/
theorem countsLines_wrappedDocument (grammar : Grammar) (source : String) :
    CountsLines source (Java.wrappedDocument grammar (normalize source)) := by
  have hplace : ∀ i k, place? source (Java.wrappedDocument grammar (normalize source)) i = some k →
      i = Java.textStart + k ∧ k ≤ (normalize source).utf8ByteSize := by
    intro i k hk
    rw [place?, Java.wrapped_wrappedDocument, if_pos rfl] at hk
    split at hk
    · rename_i hwithin
      obtain ⟨j, rfl⟩ := Nat.exists_eq_add_of_le hwithin.1
      rw [Nat.add_sub_cancel_left] at hk
      obtain rfl := Option.some.inj hk
      exact ⟨rfl, Nat.le_of_add_le_add_left hwithin.2⟩
    · cases hk
  refine ⟨Or.inr (Or.inl ⟨rfl, rfl⟩), ?_, fun n => Nat.le_max_left _ _, ?_⟩
  · intro i k b hk hb hne
    obtain ⟨rfl, hle⟩ := hplace i k hk
    exact Java.getElem?_wrap hle hb hne
  · intro n k hk
    obtain ⟨hstart, hle⟩ := hplace _ k hk
    have hbreaks := Java.breaksBefore_wrap hle
    rw [← hstart] at hbreaks
    rw [Document.line, Java.wrappedDocument]
    dsimp only
    rw [hbreaks, Nat.add_sub_cancel]
    exact Nat.max_eq_right (Nat.le_add_left _ _)

/-! ## 4. Every document -/

/-- **Lines are those of the reader's text**, however it was read. -/
theorem parse_countsLines {l : Language} {grammar : Grammar} {source : String} {d : Document}
    (h : l.frontEnd.parse grammar source = .ok d) : CountsLines source d := by
  cases l with
  | python =>
    obtain ⟨halone, hoffset, htext | ⟨htext, hmoved⟩⟩ := Python.parse_eq_ok h
    · exact countsLines_of_text htext halone hoffset
    · exact countsLines_of_dedent htext hmoved halone hoffset
  | java =>
    cases hwrapped : d.wrapped with
    | false =>
      obtain ⟨htext, hoffset⟩ := Java.parse_eq_ok_alone h hwrapped
      exact countsLines_of_text htext hwrapped hoffset
    | true =>
      rw [Java.parse_eq_ok_wrapped h hwrapped]
      exact countsLines_wrappedDocument grammar source

/-- A text whose lines are all indented, but for an empty one. -/
def indentedText : String := "\tx\n\n\ty\n"

/-- What the grammar answers for that text, alone and moved left. -/
def indentedGrammar : Grammar := .recorded indentedText [
  .unread indentedText,
  (Tree.ofRecords? [
    ⟨0, "module", 0, 0, 5, none⟩, ⟨1, "expression_statement", 0, 0, 1, none⟩,
    ⟨2, "identifier", 0, 0, 1, none⟩, ⟨1, "expression_statement", 0, 3, 4, none⟩,
    ⟨2, "identifier", 0, 3, 4, none⟩]).getD default]

/-- The second name of the text is read from its fourth byte, and stands on the third line: its
place in the text of the reader is further right by the indentations of two lines. -/
theorem parse_countsLines_indented :
    ∃ d, Language.python.frontEnd.parse indentedGrammar indentedText = .ok d ∧
      CountsLines indentedText d ∧ d.text = "x\n\ny\n" ∧ place? indentedText d 3 = some 5 ∧
      ∀ n : Node, n.start = 3 → d.line n = 3 := by
  have hparse : Language.python.frontEnd.parse indentedGrammar indentedText =
      .ok { language := .python, text := "x\n\ny\n", tree := indentedGrammar "x\n\ny\n" } := by
    rfl
  have hlines := parse_countsLines hparse
  refine ⟨_, hparse, hlines, rfl, by decide +kernel, fun n hn => ?_⟩
  rw [hlines.line n 5 (hn ▸ by decide +kernel)]
  decide +kernel

end CodeDiagram
