/-
# The first fault in document order

`syntaxError?` searches marked branches only and stops at the first fault.  If the marks of a tree
lead to its faults (`Tree.LeadsToFaults`) this is the search through all of its nodes, in document
order (`syntaxError?_eq`): what is passed over has no fault, and a tree with a mark has one, so the
answer for a marked tree that has none is never given.  Marks that are right do so
(`Tree.MarksFaults.leadsToFaults`); inside a part that was skipped, where the search does not go,
they may be wrong.

The search in turns, with a pile of the branches that wait, finds what the recursion finds in the
topmost branch that has a fault (`firstFaultInTurns?_eq`).

What is told of the fault that is found is its line, and the kind of a token that is missing or the
first line of a part that was skipped (`IsFirstFault`).
-/
import CodeDiagram.Proofs.Syntax.Braces
import CodeDiagram.Syntax.FirstFault
import Mathlib.Data.List.TakeWhile

namespace CodeDiagram

open Text (isBlankText)

/-! ## 1. Lines that are not blank -/

/-- Nothing is left of a text without the blanks at its ends exactly if it is blank. -/
theorem Text.trim_eq_nil_iff (cs : List Char) : trim cs = [] ↔ isBlankText cs = true := by
  rw [← trimStart_eq_nil_iff]
  refine ⟨fun h => ?_, fun h => by rw [trim, h]; rfl⟩
  by_contra hne
  obtain ⟨c, rest, hrest⟩ := List.exists_cons_of_ne_nil hne
  have hc : isBlank c = false := head_trimStart cs c (by rw [hrest]; rfl)
  -- the first character is kept at the end too
  have hall : ∀ d ∈ (trimStart cs).reverse, isBlank d = true := by
    rw [trim, trimEnd, dropEndWhile, List.reverse_eq_nil_iff] at h
    exact List.dropWhile_eq_nil_iff.mp h
  rw [hall c (by rw [hrest]; simp)] at hc
  cases hc

namespace Syntax

/-- What is told of a part that was skipped: the start of its first line that is not blank, if the
part is in the text and has one. -/
inductive Quotes : Option String → String → Prop
  | outside : Quotes none "invalid syntax"
  | blank {part : String} (h : ∀ row ∈ Text.lines part.toList, isBlankText row = true) :
      Quotes (some part) "invalid syntax"
  | inked {part : String} {before after : List (List Char)} {row : List Char}
      (hlines : Text.lines part.toList = before ++ row :: after)
      (hbefore : ∀ r ∈ before, isBlankText r = true) (hrow : isBlankText row = false) :
      Quotes (some part)
        ("invalid syntax near `" ++ String.ofList ((Text.trim row).take 24) ++ "`")

/-- The first of some lines that are not blank. -/
theorem find?_trim (rows : List (List Char)) :
    ((rows.map Text.trim).find? (!·.isEmpty) = none ∧ ∀ row ∈ rows, isBlankText row = true) ∨
      ∃ before row after, rows = before ++ row :: after ∧
        (∀ r ∈ before, isBlankText r = true) ∧ isBlankText row = false ∧
        (rows.map Text.trim).find? (!·.isEmpty) = some (Text.trim row) := by
  have hempty : ∀ row, (Text.trim row).isEmpty = isBlankText row := by
    intro row
    rw [Bool.eq_iff_iff, List.isEmpty_iff, Text.trim_eq_nil_iff]
  induction rows with
  | nil => exact Or.inl ⟨rfl, by simp⟩
  | cons row rows ih =>
    rw [List.map_cons, List.find?_cons, hempty]
    cases hrow : isBlankText row with
    | false => exact Or.inr ⟨[], row, rows, rfl, by simp, hrow, rfl⟩
    | true =>
      rcases ih with ⟨hnone, hall⟩ | ⟨before, r, after, hrows, hbefore, hr, hfound⟩
      · exact Or.inl ⟨hnone, List.forall_mem_cons.mpr ⟨hrow, hall⟩⟩
      · exact Or.inr ⟨row :: before, r, after, by rw [hrows]; rfl,
          List.forall_mem_cons.mpr ⟨hrow, hbefore⟩, hr, hfound⟩

theorem skippedFault_quotes (text : String) (info : Info) :
    Quotes (Text.slice text info.start info.stop) (skippedFault text info).message := by
  rw [skippedFault]
  cases Text.slice text info.start info.stop with
  | none => exact .outside
  | some part =>
    rw [Option.map_some, Option.getD_some, snippet]
    rcases find?_trim (Text.lines part.toList) with
      ⟨hnone, hall⟩ | ⟨before, row, after, hlines, hbefore, hrow, hfound⟩
    · rw [hnone]
      exact .blank hall
    · rw [hfound, Option.getD_some]
      have hne : ¬ (String.ofList ((Text.trim row).take snippetLength)).isEmpty = true := by
        rw [String.isEmpty_iff, ← String.toList_eq_nil_iff, String.toList_ofList,
          List.take_eq_nil_iff, Text.trim_eq_nil_iff, hrow]
        simp [snippetLength]
      rw [if_neg hne]
      exact .inked hlines hbefore hrow

/-! ## 2. Faults of a tree -/

namespace Tree

/-- Whether a node stands for a fault: a token that is missing or a part that was skipped. -/
def isFault (t : Tree) : Bool := t.info.missing || t.info.erroneous

/-- A tree has no fault. -/
def IsClean (t : Tree) : Prop := ∀ u ∈ t.nodes, u.isFault = false

instance (t : Tree) : Decidable t.IsClean := inferInstanceAs (Decidable (∀ u ∈ t.nodes, _))

/-- A tree has no fault exactly if a search through its nodes finds none. -/
theorem isClean_iff {t : Tree} : t.IsClean ↔ t.nodes.any isFault = false := by
  simp only [List.any_eq_false, Bool.not_eq_true]
  rfl

/-- Every node is marked exactly if there is a fault here or below. -/
def MarksFaults (t : Tree) : Prop := ∀ u ∈ t.nodes, u.info.hasFault = u.nodes.any isFault

instance (t : Tree) : Decidable t.MarksFaults := inferInstanceAs (Decidable (∀ u ∈ t.nodes, _))

/-- What the search passes over has no fault.  It looks at the children of a node that is no fault
itself, and passes over those without a mark. -/
def PassesOverClean (t : Tree) : Prop :=
  ∀ u ∈ t.nodes, u.isFault = false → ∀ c ∈ u.children, c.isMarked = false → c.IsClean

instance (t : Tree) : Decidable t.PassesOverClean :=
  inferInstanceAs (Decidable (∀ u ∈ t.nodes, _ → ∀ c ∈ u.children, _ → _))

/-- The marks of a tree lead to its faults: the root is marked exactly if there is one, and what the
search passes over has none. -/
def LeadsToFaults (t : Tree) : Prop :=
  t.info.hasFault = t.nodes.any isFault ∧ t.PassesOverClean

instance (t : Tree) : Decidable t.LeadsToFaults := inferInstanceAs (Decidable (_ ∧ _))

/-- Marks that are right lead to the faults. -/
theorem MarksFaults.leadsToFaults {t : Tree} (h : t.MarksFaults) : t.LeadsToFaults := by
  refine ⟨h t t.mem_nodes_self, fun u hu _ c hc hunmarked => isClean_iff.mpr ?_⟩
  have hbelow : c ∈ t.nodes :=
    nodes_subset_of_mem_nodes hu (mem_nodes_of_mem_children hc c.mem_nodes_self)
  rw [← h c hbelow]
  exact (Bool.or_eq_false_iff.mp hunmarked).1

/-- Inside a part that was skipped the marks may be wrong: here a token that was skipped in turn is
not marked. -/
example :
    let skipped : Tree := .node { id := 2, kind := "ERROR", start := 1, stop := 2,
                                  erroneous := true } []
    let t : Tree := .node { id := 0, kind := "module", start := 0, stop := 2, hasFault := true }
      [.node { id := 1, kind := "ERROR", start := 0, stop := 2, erroneous := true,
               hasFault := true } [skipped]]
    t.LeadsToFaults ∧ ¬ t.MarksFaults := by decide

theorem PassesOverClean.of_mem_children {t c : Tree} (h : t.PassesOverClean)
    (hc : c ∈ t.children) : c.PassesOverClean :=
  fun u hu => h u (mem_nodes_of_mem_children hc hu)

/-- A tree whose marks lead to its faults has none exactly if it is not marked. -/
theorem LeadsToFaults.isClean_iff {t : Tree} (h : t.LeadsToFaults) :
    t.IsClean ↔ t.info.hasFault = false := by
  rw [h.1, Tree.isClean_iff]

end Tree

/-- What is told of the fault that a node stands for. -/
def faultOf (text : String) (t : Tree) : SyntaxError :=
  if t.info.missing then ⟨lineIn text t.info, .missing t.info.kind⟩
  else ⟨lineIn text t.info, skippedFault text t.info⟩

/-- `e` tells of the fault that a node stands for. -/
structure TellsOf (text : String) (t : Tree) (e : SyntaxError) : Prop where
  line : e.line = Text.breaksBefore text t.info.start + 1
  missing : t.info.missing = true → e.fault.message = "missing `" ++ t.info.kind ++ "`"
  skipped : t.info.missing = false →
    Quotes (Text.slice text t.info.start t.info.stop) e.fault.message

theorem tellsOf_faultOf (text : String) (t : Tree) : TellsOf text t (faultOf text t) := by
  unfold faultOf
  split
  · rename_i hmissing
    exact ⟨rfl, fun _ => rfl, fun hskipped => absurd (hskipped.symm.trans hmissing) (by simp)⟩
  · rename_i hskipped
    exact ⟨rfl, fun hmissing => absurd hmissing hskipped, fun _ => skippedFault_quotes text t.info⟩

/-! ## 3. The search -/

/-- Of a tree that is a fault nothing more is searched. -/
theorem firstFault?_of_isFault (text : String) {t : Tree} (h : t.isFault = true) :
    firstFault? text t = some (faultOf text t) := by
  obtain ⟨info, children⟩ := t
  rw [firstFault?, faultOf]
  cases hmissing : info.missing with
  | true => simp [Tree.info, hmissing]
  | false =>
    have hskipped : info.erroneous = true := by simpa [Tree.isFault, Tree.info, hmissing] using h
    simp [Tree.info, hmissing, hskipped]

/-- A tree that is no fault itself is searched for the first among its children. -/
theorem firstFault?_of_not_isFault (text : String) {t : Tree} (h : t.isFault = false) :
    firstFault? text t = firstFaultAmong? text t.children := by
  obtain ⟨info, children⟩ := t
  obtain ⟨hmissing, hskipped⟩ : info.missing = false ∧ info.erroneous = false := by
    simpa [Tree.isFault, Tree.info] using h
  simp [firstFault?, Tree.children, hmissing, hskipped]

/-- Of some trees those that are marked are searched. -/
theorem firstFaultAmong?_eq_findSome? (text : String) (ts : List Tree) :
    firstFaultAmong? text ts = (ts.filter (·.isMarked)).findSome? (firstFault? text) := by
  induction ts with
  | nil => rfl
  | cons t ts ih =>
    rw [firstFaultAmong?, ih, List.filter_cons]
    split
    · rw [List.findSome?_cons]
      cases firstFault? text t <;> rfl
    · rfl

/-- **The search in turns** finds the first fault of the topmost tree that has one. -/
theorem firstFaultInTurns?_eq (text : String) (waiting : List Tree) :
    firstFaultInTurns? text waiting = waiting.findSome? (firstFault? text) := by
  induction waiting using firstFaultInTurns?.induct with
  | case1 => rw [firstFaultInTurns?, List.findSome?_nil]
  | case2 t waiting hmissing =>
    have hfault : t.isFault = true := by rw [Tree.isFault, hmissing, Bool.true_or]
    rw [firstFaultInTurns?, if_pos hmissing, List.findSome?_cons,
      firstFault?_of_isFault text hfault, faultOf, if_pos hmissing]
  | case3 t waiting hpresent hskipped =>
    have hfault : t.isFault = true := by rw [Tree.isFault, hskipped, Bool.or_true]
    rw [firstFaultInTurns?, if_neg hpresent, if_pos hskipped, List.findSome?_cons,
      firstFault?_of_isFault text hfault, faultOf, if_neg hpresent]
  | case4 t waiting hpresent hread ih =>
    have hfault : t.isFault = false := by simp [Tree.isFault, hpresent, hread]
    rw [firstFaultInTurns?, if_neg hpresent, if_neg hread, ih, pile_reverse,
      List.findSome?_append, List.findSome?_cons, firstFault?_of_not_isFault text hfault,
      firstFaultAmong?_eq_findSome?]
    cases (t.children.filter (·.isMarked)).findSome? (firstFault? text) <;> rfl

/-- The search through some trees is the search through all of their nodes, if it is so for each and
those that are passed over have no fault. -/
theorem firstFaultAmong?_eq (text : String) {ts : List Tree}
    (hpassed : ∀ t ∈ ts, t.isMarked = false → t.IsClean)
    (h : ∀ t ∈ ts, firstFault? text t = (t.nodes.find? Tree.isFault).map (faultOf text)) :
    firstFaultAmong? text ts = ((ts.flatMap Tree.nodes).find? Tree.isFault).map (faultOf text) := by
  induction ts with
  | nil => rfl
  | cons t ts ih =>
    obtain ⟨ht, hrest⟩ := List.forall_mem_cons.mp h
    obtain ⟨hpass, hpassed⟩ := List.forall_mem_cons.mp hpassed
    rw [firstFaultAmong?, ih hpassed hrest, ht, List.flatMap_cons, List.find?_append]
    cases hfound : t.nodes.find? Tree.isFault with
    | some u =>
      -- the tree has a fault, so it is not passed over
      have hmarked : t.isMarked = true := by
        by_contra hunmarked
        have hnone := hpass (Bool.eq_false_iff.mpr hunmarked) u (List.mem_of_find?_eq_some hfound)
        exact Bool.false_ne_true (hnone.symm.trans (List.find?_some hfound))
      rw [hmarked]
      rfl
    | none => exact ite_self _

/-- **The search through marked branches finds the first fault** of all nodes in document order. -/
theorem firstFault?_eq (text : String) {t : Tree} (h : t.PassesOverClean) :
    firstFault? text t = (t.nodes.find? Tree.isFault).map (faultOf text) := by
  induction t using Tree.children_induction with
  | h t ih =>
    rw [Tree.nodes_eq, List.find?_cons]
    cases hfault : t.isFault with
    | true => exact firstFault?_of_isFault text hfault
    | false =>
      rw [firstFault?_of_not_isFault text hfault]
      exact firstFaultAmong?_eq text (h t t.mem_nodes_self hfault) fun c hc =>
        ih c hc (h.of_mem_children hc)

/-- Whatever the marks are, what is found is told of a node of the tree. -/
theorem exists_of_firstFault? {text : String} {t : Tree} {e : SyntaxError}
    (h : firstFault? text t = some e) : ∃ u ∈ t.nodes, e = faultOf text u := by
  induction t using Tree.children_induction with
  | h t ih =>
    cases hfault : t.isFault with
    | true =>
      rw [firstFault?_of_isFault text hfault] at h
      exact ⟨t, t.mem_nodes_self, (Option.some.inj h).symm⟩
    | false =>
      rw [firstFault?_of_not_isFault text hfault, firstFaultAmong?_eq_findSome?] at h
      obtain ⟨c, hc, hfound⟩ := List.exists_of_findSome?_eq_some h
      have hchild := (List.mem_filter.mp hc).1
      obtain ⟨u, hu, he⟩ := ih c hchild hfound
      exact ⟨u, Tree.mem_nodes_of_mem_children hchild hu, he⟩

/-- **The error of a text** is what is told of the first fault of its tree. -/
theorem syntaxError?_eq (text : String) {t : Tree} (h : t.LeadsToFaults) :
    syntaxError? text t = (t.nodes.find? Tree.isFault).map (faultOf text) := by
  rw [syntaxError?, h.1, firstFault?_eq text h.2]
  cases hfound : t.nodes.find? Tree.isFault with
  | none =>
    have hnone : t.nodes.any Tree.isFault = false := by
      rw [List.any_eq_false]
      exact List.find?_eq_none.mp hfound
    rw [hnone]
    rfl
  | some u =>
    have hsome : t.nodes.any Tree.isFault = true :=
      List.any_eq_true.mpr ⟨u, List.mem_of_find?_eq_some hfound, List.find?_some hfound⟩
    rw [hsome]
    rfl

/-- A text has no error exactly if its tree has no fault. -/
theorem syntaxError?_eq_none_iff (text : String) {t : Tree} (h : t.LeadsToFaults) :
    syntaxError? text t = none ↔ t.IsClean := by
  rw [h.isClean_iff, syntaxError?]
  cases t.info.hasFault <;> simp

/-- An error tells of the first fault that a search through all nodes in document order finds. -/
def IsFirstFault (text : String) (t : Tree) (e : SyntaxError) : Prop :=
  ∃ before u after, t.nodes = before ++ u :: after ∧
    (∀ v ∈ before, v.isFault = false) ∧ u.isFault = true ∧ TellsOf text u e

theorem isFirstFault_of_syntaxError? {text : String} {t : Tree} {e : SyntaxError}
    (h : t.LeadsToFaults) (herror : syntaxError? text t = some e) : IsFirstFault text t e := by
  rw [syntaxError?_eq text h, Option.map_eq_some_iff] at herror
  obtain ⟨u, hfound, rfl⟩ := herror
  obtain ⟨hfault, before, after, hnodes, hbefore⟩ := List.find?_eq_some_iff_append.mp hfound
  exact ⟨before, u, after, hnodes, fun v hv => by simpa using hbefore v hv, hfault,
    tellsOf_faultOf text u⟩

end Syntax

end CodeDiagram
