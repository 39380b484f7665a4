/-
# When a text is read

A front end reads a text as it stands, and after a fault it may read it once more, in another text
(`Language.retry?`).  So a text is read exactly if the first tree has no fault, or else the second
has none, and what is told of a text that is not read is the first fault of the first tree
(`parse_reports_firstFault`).

This rests on the search for faults, which looks into marked branches only
(`Syntax.syntaxError?_eq_none_iff`, `Syntax.isFirstFault_of_syntaxError?`): the marks have to lead
to the faults of the trees that are read, as they do if they are right, and nothing else is asked of
a grammar.
-/
import CodeDiagram.FrontEnd.Registry
import CodeDiagram.Proofs.FrontEnd.Wrapping
import CodeDiagram.Proofs.Syntax.Faults
import CodeDiagram.Syntax.Recorded

namespace CodeDiagram

open Syntax

/-! ## 1. Two attempts -/

/-- The document of a text as it stands. -/
def Language.document (language : Language) (grammar : Grammar) (text : String) : Document where
  language := language
  text := text
  tree := grammar text

/-- The document that a language tries after a fault in a text: in Python that of the text at the
left margin, if the text is not there already, and in Java that of the text in the wrapper. -/
def Language.retry? (language : Language) (grammar : Grammar) (text : String) : Option Document :=
  match language with
  | .python =>
    if Text.dedent text = text then none
    else some (Language.python.document grammar (Text.dedent text))
  | .java => some (Java.wrappedDocument grammar text)

/-- The error of a document. -/
def Syntax.Document.error? (d : Document) : Option SyntaxError := syntaxError? d.text d.tree

/-- The first document, or another if the first has an error and the other has none. -/
def firstRead (first : Document) (retry : Option Document) : Except SyntaxError Document :=
  match first.error? with
  | none => .ok first
  | some e =>
    match retry.filter (·.error?.isNone) with
    | some d => .ok d
    | none => .error e

/-- **A front end makes two attempts** at the most, and tells of the first if both fail. -/
theorem parse_eq_firstRead (language : Language) (grammar : Grammar) (source : String) :
    language.frontEnd.parse grammar source =
      firstRead (language.document grammar (Text.normalize source))
        (language.retry? grammar (Text.normalize source)) := by
  cases language with
  | python =>
    rw [Language.frontEnd_python, Python.frontEnd_parse, Python.parse, firstRead, Language.retry?,
      Grammar.read, Document.error?, Language.document]
    cases syntaxError? (Text.normalize source) (grammar (Text.normalize source)) with
    | none => rfl
    | some e =>
      by_cases hmoved : Text.dedent (Text.normalize source) = Text.normalize source
      · rw [if_pos hmoved]
        exact if_pos hmoved
      · rw [if_neg hmoved]
        refine (if_neg hmoved).trans ?_
        rw [Grammar.read, Option.filter_some, Document.error?, Language.document]
        cases syntaxError? (Text.dedent (Text.normalize source))
          (grammar (Text.dedent (Text.normalize source))) <;> rfl
  | java =>
    rw [Language.frontEnd_java, Java.frontEnd_parse, Java.parse, firstRead, Language.retry?,
      Grammar.read, Document.error?, Language.document]
    cases syntaxError? (Text.normalize source) (grammar (Text.normalize source)) with
    | none => rfl
    | some e =>
      rw [Grammar.read, Option.filter_some, Document.error?, Java.wrappedDocument]
      cases syntaxError? (Java.wrap (Text.normalize source))
        (grammar (Java.wrap (Text.normalize source))) <;> rfl

/-! ## 2. What is read -/

/-- What two attempts come to: a document without faults, the first if it is one, or the error of
the first. -/
structure IsReading (first : Document) (retry : Option Document)
    (answer : Except SyntaxError Document) : Prop where
  /-- There is an answer exactly if one of the attempts has no fault. -/
  read_iff : (∃ d, answer = .ok d) ↔ first.tree.IsClean ∨ ∃ d ∈ retry, d.tree.IsClean
  of_first : first.tree.IsClean → answer = .ok first
  of_retry : ¬ first.tree.IsClean → ∀ d ∈ retry, d.tree.IsClean → answer = .ok d
  /-- An error is that of the first attempt, and tells of its first fault. -/
  told : ∀ e, answer = .error e → first.error? = some e ∧ IsFirstFault first.text first.tree e

theorem isReading_firstRead {first : Document} {retry : Option Document}
    (hfirst : first.tree.LeadsToFaults) (hretry : ∀ d ∈ retry, d.tree.LeadsToFaults) :
    IsReading first retry (firstRead first retry) := by
  have hclean : first.error? = none ↔ first.tree.IsClean :=
    syntaxError?_eq_none_iff first.text hfirst
  cases herror : first.error? with
  | none =>
    have hread : firstRead first retry = .ok first := by rw [firstRead, herror]
    have hnone := hclean.mp herror
    rw [hread]
    exact ⟨iff_of_true ⟨first, rfl⟩ (Or.inl hnone), fun _ => rfl,
      fun hfault => absurd hnone hfault, fun e he => by cases he⟩
  | some e =>
    have hfault : ¬ first.tree.IsClean := fun h => by
      rw [hclean.mpr h] at herror
      cases herror
    have htold := isFirstFault_of_syntaxError? hfirst herror
    cases hfound : retry.filter (·.error?.isNone) with
    | some d =>
      -- the second attempt has no error, so its tree has no fault
      obtain ⟨hd, hnone⟩ := Option.filter_eq_some_iff.mp hfound
      have hdclean : d.tree.IsClean :=
        (syntaxError?_eq_none_iff d.text (hretry d hd)).mp (Option.isNone_iff_eq_none.mp hnone)
      have hread : firstRead first retry = .ok d := by rw [firstRead, herror, hfound]
      rw [hread]
      refine ⟨iff_of_true ⟨d, rfl⟩ (Or.inr ⟨d, hd, hdclean⟩), fun h => absurd h hfault,
        fun _ d' hd' _ => ?_, fun e he => by cases he⟩
      rw [Option.some.inj ((Option.mem_def.mp hd').symm.trans hd)]
    | none =>
      have hread : firstRead first retry = .error e := by rw [firstRead, herror, hfound]
      have hfaulty : ∀ d ∈ retry, ¬ d.tree.IsClean := fun d hd h =>
        Option.filter_eq_none_iff.mp hfound d hd
          (Option.isNone_iff_eq_none.mpr ((syntaxError?_eq_none_iff d.text (hretry d hd)).mpr h))
      rw [hread]
      refine ⟨iff_of_false (fun ⟨d, hd⟩ => by cases hd) ?_, fun h => absurd h hfault,
        fun _ d hd h => absurd h (hfaulty d hd), fun e' he => ?_⟩
      · rintro (h | ⟨d, hd, h⟩)
        exacts [hfault h, hfaulty d hd h]
      · exact Except.error.inj he ▸ ⟨herror, htold⟩

/-- **The first fault is told**: the search in turns and the recursion find the same, and in a tree
whose marks lead to its faults, as marks that are right do, they find an error exactly if there is a
fault, and tell of the first in document order.  So a text is read exactly if one of the attempts
has no fault, and if none is read the first fault of the first is told. -/
theorem parse_reports_firstFault :
    (∀ (text : String) (tree : Tree), firstFaultInTurns? text [tree] = firstFault? text tree) ∧
    (∀ tree : Tree, tree.MarksFaults → tree.LeadsToFaults) ∧
    (∀ (text : String) (tree : Tree), tree.LeadsToFaults →
      (syntaxError? text tree = none ↔ tree.IsClean) ∧
        ∀ e, syntaxError? text tree = some e → IsFirstFault text tree e) ∧
    ∀ (language : Language) (grammar : Grammar) (source : String),
      (grammar (Text.normalize source)).LeadsToFaults →
      (∀ d ∈ language.retry? grammar (Text.normalize source), d.tree.LeadsToFaults) →
      IsReading (language.document grammar (Text.normalize source))
        (language.retry? grammar (Text.normalize source))
        (language.frontEnd.parse grammar source) := by
  refine ⟨fun text tree => ?_, fun _ => Tree.MarksFaults.leadsToFaults, fun text tree h => ?_, ?_⟩
  · rw [firstFaultInTurns?_eq, List.findSome?_singleton]
  · exact ⟨syntaxError?_eq_none_iff text h, fun e he => isFirstFault_of_syntaxError? h he⟩
  · intro language grammar source hfirst hretry
    rw [parse_eq_firstRead]
    exact isReading_firstRead hfirst hretry

/-- A text that is moved to the left margin with the parenthesis that it does not close. -/
def unclosedText : String := "    x = (\n    y = 2"

/-- What the grammar answers for that text and at the left margin. -/
def unclosedGrammar : Grammar := .recorded unclosedText [
  (Tree.ofRecords? [
    ⟨0, "module", 8, 4, 19, none⟩, ⟨1, "expression_statement", 8, 4, 19, none⟩,
    ⟨2, "assignment", 8, 4, 19, none⟩, ⟨3, "identifier", 0, 4, 5, "left"⟩,
    ⟨3, "ERROR", 12, 6, 15, none⟩, ⟨4, "=", 1, 6, 7, none⟩, ⟨4, "(", 1, 8, 9, none⟩,
    ⟨4, "identifier", 0, 14, 15, none⟩, ⟨3, "=", 1, 16, 17, none⟩,
    ⟨3, "integer", 0, 18, 19, "right"⟩]).getD default,
  (Tree.ofRecords? [
    ⟨0, "module", 8, 0, 11, none⟩, ⟨1, "expression_statement", 8, 0, 11, none⟩,
    ⟨2, "assignment", 8, 0, 11, none⟩, ⟨3, "identifier", 0, 0, 1, "left"⟩,
    ⟨3, "ERROR", 12, 2, 7, none⟩, ⟨4, "=", 1, 2, 3, none⟩, ⟨4, "(", 1, 4, 5, none⟩,
    ⟨4, "identifier", 0, 6, 7, none⟩, ⟨3, "=", 1, 8, 9, none⟩,
    ⟨3, "integer", 0, 10, 11, "right"⟩]).getD default]

/-- Both attempts fail, and the first line of what is skipped in the first is told. -/
theorem parse_reports_firstFault_unclosed :
    ∃ e, Language.python.frontEnd.parse unclosedGrammar unclosedText = .error e ∧
      IsFirstFault unclosedText (unclosedGrammar unclosedText) e ∧
      e.message = "Syntax error at line 1: invalid syntax near `= (`" := by
  have hnormal : Text.normalize unclosedText = unclosedText := by decide +kernel
  have hreading := parse_reports_firstFault.2.2.2 .python unclosedGrammar unclosedText
    (by decide +kernel) (by decide +kernel)
  have hparse : Language.python.frontEnd.parse unclosedGrammar unclosedText =
      .error ⟨1, .near "= ("⟩ := by rfl
  have hfault := (hreading.told _ hparse).2
  rw [hnormal] at hfault
  exact ⟨_, hparse, hfault, by decide +kernel⟩

end CodeDiagram
