/-
# Labels of an outline

A node of an outline is labelled with the text that the rule of its kind gives, and with its grammar
kind if the rule gives none.  The text of a rule is cut to the limit; the grammar kind is not.  So
labels keep to the limit exactly if no node without a text of its own has a grammar kind that is
longer (`forall₂_isLabelled_iff`).

In a tree without a fault there is hardly such a node: a grammar gives every declaration its name,
every Java call what it calls, and every node its range of the text (`FollowsGrammar`).  What is
left are calls of Python that do not call a name, and their grammar kind has as many characters as
the least limit that settings can have (`length_le_of_fullLabel_eq_error`).
-/
import CodeDiagram.Proofs.FrontEnd.Naming
import CodeDiagram.Proofs.Outline.Collecting
import CodeDiagram.Proofs.Settings.Loading
import CodeDiagram.Syntax.Recorded

namespace CodeDiagram

open Syntax

/-! ## 1. Cutting to a limit -/

/-- A label shows a text as far as a limit allows: all of it, or its start and three dots. -/
structure Text.IsCutTo (limit : Nat) (text label : String) : Prop where
  within : label.length ≤ limit
  whole : text.length ≤ limit → label = text
  cut : limit < text.length → label.toList = text.toList.take (limit - 3) ++ ['.', '.', '.']

theorem Text.isCutTo_truncate {limit : Nat} (h : leastLabelLength ≤ limit) (text : String) :
    IsCutTo limit text (truncate limit text) := by
  unfold truncate truncateChars
  rw [String.length_toList]
  split
  · rename_i hle
    rw [String.ofList_toList]
    exact ⟨hle, fun _ => rfl, fun hlt => absurd hle (Nat.not_le_of_lt hlt)⟩
  · rename_i hlt
    refine ⟨?_, fun hle => absurd hle hlt, fun _ => String.toList_ofList⟩
    have hdots : ellipsis.length = 3 := rfl
    have hleast : leastLabelLength = 4 := rfl
    rw [String.length_ofList, List.length_append, List.length_take, hdots]
    omega

/-- What is not cut shows itself exactly if it is short enough. -/
theorem Text.isCutTo_self_iff {limit : Nat} {text : String} :
    IsCutTo limit text text ↔ text.length ≤ limit :=
  ⟨fun h => h.within, fun h => ⟨h, fun _ => rfl, fun hlt => absurd h (Nat.not_le_of_lt hlt)⟩⟩

/-! ## 2. What a grammar gives -/

/-- The fields that the grammar of a language marks as required for a kind of node, as far as labels
are taken from them. -/
def Language.requiredFields : Language → String → List String
  | .python, kind =>
    if kind ∈ ["function_definition", "class_definition"] then ["name"] else []
  | .java, kind =>
    if kind ∈ ["class_declaration", "record_declaration", "interface_declaration",
      "annotation_type_declaration", "enum_declaration", "method_declaration",
      "constructor_declaration", "compact_constructor_declaration", "variable_declarator",
      "formal_parameter", "catch_formal_parameter", "method_invocation"] then ["name"]
    else if kind = "object_creation_expression" then ["type"] else []

/-- What a grammar keeps to in the tree of a text without a fault, by its own list of node types. -/
structure Language.FollowsGrammar (l : Language) (d : Document) : Prop where
  /-- Every node is a range of the text, from between characters to between characters. -/
  range : ∀ n ∈ d.nodes, (Text.slice d.text n.start n.stop).isSome = true
  /-- Every node has the fields that its kind requires. -/
  fields : ∀ n ∈ d.nodes, ∀ field ∈ l.requiredFields n.kind, (n.field? field).isSome = true

section Texts

variable {l : Language} {d : Document} {n : Node}

theorem Language.FollowsGrammar.exists_text (h : l.FollowsGrammar d) (hn : n ∈ d.nodes) :
    ∃ s, d.textOf n = .ok s := by
  obtain ⟨s, hs⟩ := Option.isSome_iff_exists.mp (h.range n hn)
  exact ⟨s, by rw [Document.textOf, hs]⟩

theorem Language.FollowsGrammar.exists_fieldText (h : l.FollowsGrammar d) (hn : n ∈ d.nodes)
    {field : String} (hfield : field ∈ l.requiredFields n.kind) :
    ∃ s, d.fieldText n field = .ok s := by
  obtain ⟨c, hc⟩ := Option.isSome_iff_exists.mp (h.fields n hn field hfield)
  have hmem := Node.mem_inside_of_mem_children hn (Node.mem_children_of_field? hc)
  rw [Document.fieldText, hc]
  exact h.exists_text hmem

/-- Declarations have a name. -/
theorem Language.name_mem_requiredFields (h : l.IsDeclaration n) :
    "name" ∈ l.requiredFields n.kind := by
  cases l with
  | python => rcases Python.kind_of_isDeclaration h with hk | hk <;> rw [hk] <;> decide
  | java =>
    have hkind := Java.kind_of_isDeclaration h
    simp only [List.mem_cons, List.not_mem_nil, or_false] at hkind
    rcases hkind with (hk | hk | hk | hk) | (hk | hk | hk) | (hk | hk) | (hk | hk) <;>
      rw [hk] <;> decide

/-- A Java call has the name of what it calls. -/
theorem Java.exists_calleeName (h : Language.java.FollowsGrammar d) (hn : n ∈ d.nodes)
    (hcall : (Java.classify n.kind).labelRule = .callee) : ∃ s, Java.calleeName d n = some s := by
  have hkind : n.kind = "method_invocation" ∨ n.kind = "object_creation_expression" := by
    unfold Java.classify at hcall
    split at hcall <;> first
      | exact absurd hcall (by decide)
      | simp [*]
  rcases hkind with hk | hk
  · have hname : "name" ∈ Language.java.requiredFields n.kind := by rw [hk]; decide
    obtain ⟨s, hs⟩ := h.exists_fieldText hn hname
    exact ⟨s, by simp [Java.calleeName, hk, Document.fieldText?, hs, Except.toOption]⟩
  · have htype : "type" ∈ Language.java.requiredFields n.kind := by rw [hk]; decide
    obtain ⟨s, hs⟩ := h.exists_fieldText hn htype
    exact ⟨simpleTypeName s, by
      simp [Java.calleeName, hk, Document.fieldText?, hs, Except.toOption]⟩

theorem Python.kind_of_callee (hcall : (Python.classify n.kind).labelRule = .callee) :
    n.kind = "call" := by
  unfold Python.classify at hcall
  split at hcall <;> first
    | exact absurd hcall (by decide)
    | assumption

/-- **The rule of a kind gives a text**, except for a call of Python. -/
theorem kind_of_fullLabel_eq_error (h : l.FollowsGrammar d) (hn : n ∈ d.nodes)
    {e : ExtractionFault} (he : l.frontEnd.fullLabel d n = .error e) : n.kind = "call" := by
  obtain ⟨s, hs⟩ := h.exists_text hn
  unfold FrontEnd.fullLabel at he
  split at he
  · cases he
  · rw [hs] at he
    cases he
  · rename_i hrule
    cases l with
    | python => exact Python.kind_of_callee hrule
    | java =>
      obtain ⟨name, hname⟩ := Java.exists_calleeName h hn hrule
      have hcallee : Language.java.frontEnd.calleeName d n = some name := hname
      rw [hcallee] at he
      cases he
  · rename_i hrule
    obtain ⟨name, hname⟩ := h.exists_fieldText hn (Language.name_mem_requiredFields hrule)
    rw [Document.declaredName, hname] at he
    cases he
  · rw [hs] at he
    cases he

/-- A kind whose name is missing is not longer than any limit that settings have. -/
theorem length_le_of_fullLabel_eq_error (h : l.FollowsGrammar d) (hn : n ∈ d.nodes)
    {e : ExtractionFault} (he : l.frontEnd.fullLabel d n = .error e) :
    n.kind.length ≤ leastLabelLength := by
  rw [kind_of_fullLabel_eq_error h hn he]
  decide

end Texts

/-! ## 3. Labels -/

/-- The text of a label in full length: what the rule of a kind gives, or else the grammar kind. -/
def FrontEnd.labelText (fe : FrontEnd) (d : Document) (n : Node) : String :=
  match fe.fullLabel d n with
  | .ok text => text
  | .error _ => n.kind

/-- A text of a rule is cut, and a grammar kind has to be short enough. -/
theorem FrontEnd.isCutTo_label_iff {limit : Nat} (h : leastLabelLength ≤ limit) (fe : FrontEnd)
    (d : Document) (n : Node) : Text.IsCutTo limit (fe.labelText d n) (fe.label limit d n) ↔
      ∀ e, fe.fullLabel d n = .error e → n.kind.length ≤ limit := by
  unfold labelText label
  cases fe.fullLabel d n with
  | ok text => simp [Text.isCutTo_truncate h]
  | error e => simp [Text.isCutTo_self_iff]

namespace Outline

/-- A node of the graph stands for a node of the document and is labelled with its text. -/
structure IsLabelled (fe : FrontEnd) (limit : Nat) (d : Document) (n : Node) (v : Graph.Vertex) :
    Prop where
  type : v.type = n.kind
  line : v.line = some (d.line n)
  label : Text.IsCutTo limit (fe.labelText d n) v.label

theorem forall₂_mapIdx_iff {α β : Type} {r : α → β → Prop} {p : α → Prop} {l : List α}
    {f : Nat → α → β} (h : ∀ i a, r a (f i a) ↔ p a) :
    List.Forall₂ r l (l.mapIdx f) ↔ ∀ a ∈ l, p a := by
  induction l generalizing f with
  | nil => simp
  | cons a l ih =>
    rw [List.mapIdx_cons, List.forall₂_cons, h, ih fun i => h (i + 1), List.forall_mem_cons]

/-- **Labels keep to the limit** exactly if no node without a text of its own has a longer kind. -/
theorem forall₂_isLabelled_iff {fe : FrontEnd} {limit : Nat} (hlimit : leastLabelLength ≤ limit)
    {d : Document} {ns : List Node} {o : Outline} (h : IsMadeOf fe limit d ns o) :
    List.Forall₂ (IsLabelled fe limit d) ns o.graph.nodes ↔
      ∀ n ∈ ns, ∀ e, fe.fullLabel d n = .error e → n.kind.length ≤ limit := by
  rw [h.nodes, forall₂_mapIdx_iff]
  intro i n
  rw [← fe.isCutTo_label_iff hlimit]
  exact ⟨fun h => h.label, fun h => ⟨rfl, rfl, h⟩⟩

/-- **Every node of an outline shows its text as far as the limit of the settings allows**, if no
kind is longer that is shown for want of a text; in a tree that follows a grammar none is. -/
theorem build_isLabelled {s : Settings} (h : s.check = .ok ()) (l : Language) (limit : Nat)
    (d : Document) :
    ∃ ns, (∀ n ∈ ns, d.root.IsInside n) ∧
      IsMadeOf l.frontEnd s.pipeline.maxLabelLength d ns
        (build l.frontEnd limit s.pipeline.maxLabelLength d) ∧
      (List.Forall₂ (IsLabelled l.frontEnd s.pipeline.maxLabelLength d) ns
          (build l.frontEnd limit s.pipeline.maxLabelLength d).graph.nodes ↔
        ∀ n ∈ ns, ∀ e, l.frontEnd.fullLabel d n = .error e →
          n.kind.length ≤ s.pipeline.maxLabelLength) ∧
      (l.FollowsGrammar d → List.Forall₂ (IsLabelled l.frontEnd s.pipeline.maxLabelLength d) ns
        (build l.frontEnd limit s.pipeline.maxLabelLength d).graph.nodes) := by
  obtain ⟨hlimit, -, -⟩ := Settings.check_eq_ok_iff.mp h
  obtain ⟨ns, hinside, hmade⟩ :=
    build_isMadeOf l.frontEnd limit s.pipeline.maxLabelLength d
  have hiff := forall₂_isLabelled_iff hlimit hmade
  refine ⟨ns, hinside, hmade, hiff, fun hgrammar => hiff.mpr fun n hn e he => ?_⟩
  have hmem := Document.mem_nodes_of_isInside (hinside n hn)
  exact Nat.le_trans (length_le_of_fullLabel_eq_error hgrammar hmem he) hlimit

/-- A call of what stands at an index, so that no name is called. -/
def indexed : Document where
  language := .python
  text := "total[0](1)"
  tree := (Tree.ofRecords? [
    ⟨0, "module", 0, 0, 11, none⟩, ⟨1, "expression_statement", 0, 0, 11, none⟩,
    ⟨2, "call", 0, 0, 11, none⟩, ⟨3, "subscript", 0, 0, 8, "function"⟩,
    ⟨4, "identifier", 0, 0, 5, "value"⟩, ⟨4, "[", 1, 5, 6, none⟩,
    ⟨4, "integer", 0, 6, 7, "subscript"⟩, ⟨4, "]", 1, 7, 8, none⟩,
    ⟨3, "argument_list", 0, 8, 11, "arguments"⟩, ⟨4, "(", 1, 8, 9, none⟩,
    ⟨4, "integer", 0, 9, 10, none⟩, ⟨4, ")", 1, 10, 11, none⟩]).getD default

/-- Settings with the least limit. -/
def shortest : Settings := { pipeline := { maxLabelLength := leastLabelLength } }

/-- The call is labelled with its grammar kind, which is not cut, and the identifier with its text,
which is. -/
theorem build_isLabelled_indexed :
    shortest.check = .ok () ∧ Language.python.FollowsGrammar indexed ∧
      (build Python.frontEnd 10 4 indexed).graph.nodes.map (·.label) =
        ["m...", "e...", "call", "s...", "t...", "0", "a...", "1"] ∧
      ∃ ns, IsMadeOf Python.frontEnd 4 indexed ns (build Python.frontEnd 10 4 indexed) ∧
        List.Forall₂ (IsLabelled Python.frontEnd 4 indexed) ns
          (build Python.frontEnd 10 4 indexed).graph.nodes := by
  have hcheck : shortest.check = .ok () := rfl
  have hgrammar : Language.python.FollowsGrammar indexed :=
    ⟨by decide +kernel, by decide +kernel⟩
  obtain ⟨ns, -, hmade, -, hlabelled⟩ := build_isLabelled hcheck .python 10 indexed
  exact ⟨hcheck, hgrammar, by decide +kernel, ns, hmade, hlabelled hgrammar⟩

end Outline

end CodeDiagram
