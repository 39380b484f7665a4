/-
# Where the texts of a graph come from

The types and labels of a graph are grammar kinds, parts of the text that was read, and fixed words;
the dots of a cut label and the words around a quoted error are fixed too.  So they stay in any
class of characters that has the source, the kinds of the grammar and what an XML document may have
(`Pipeline.within_run`): whatever can be in a label and not in a document came with the source.

* Graphs stay in a class with what is added to them (`Graph.Within`); along the events of a walk one
  step keeps this (`DataFlow.within_record`) and so does the run (`DataFlow.within_synthesize`).
* The text of a document is in the class of its source (`within_parse`).
-/
import CodeDiagram.Proofs.CallGraph.Framing
import CodeDiagram.Proofs.DataFlow.Recording
import CodeDiagram.Proofs.FrontEnd.Reading
import CodeDiagram.Proofs.FrontEnd.Spelling
import CodeDiagram.Proofs.Outline.Collecting
import CodeDiagram.Proofs.Pipeline.Runs

namespace CodeDiagram

open Syntax
open Text (IsXmlChar Within within_word)

variable {P : Char → Prop}

/-! ## 1. Graphs -/

/-- The types and labels of a graph are of a class. -/
def Graph.Within (P : Char → Prop) (g : Graph) : Prop :=
  ∀ v ∈ g.nodes, Text.Within P v.type ∧ Text.Within P v.label

namespace Graph

variable {g : Graph}

theorem within_empty : Graph.empty.Within P := by
  simp [Graph.Within, empty]

theorem Within.addNode (h : g.Within P) {type label : String} (htype : Text.Within P type)
    (hlabel : Text.Within P label) (kind : NodeKind) (line : Option Nat) :
    (g.addNode type kind label line).1.Within P := by
  intro v hv
  rw [nodes_addNode] at hv
  rcases List.mem_append.mp hv with hv | hv
  · exact h v hv
  · rw [List.mem_singleton.mp hv]
    exact ⟨htype, hlabel⟩

theorem Within.addEdge (h : g.Within P) (e : Edge) : (g.addEdge e).Within P := by
  rwa [Graph.Within, nodes_addEdge]

theorem within_placeholder {type label : String} (htype : Text.Within P type)
    (hlabel : Text.Within P label) (kind : NodeKind) :
    (placeholder type kind label).Within P :=
  within_empty.addNode htype hlabel kind none

end Graph

section Legal

variable (hP : ∀ c, IsXmlChar c → P c)
include hP

/-! ## 2. Data flow -/

namespace DataFlow

theorem within_addParameters {g : Graph} (h : g.Within P) (function : NodeId) (line : Nat)
    {parameters : List String} (hparameters : ∀ p ∈ parameters, Within P p) :
    (addParameters function line g parameters).1.Within P := by
  have hword : Within P "parameter" := within_word hP (by decide)
  induction parameters generalizing g with
  | nil => exact h
  | cons p ps ih =>
    obtain ⟨hp, hps⟩ := List.forall_mem_cons.mp hparameters
    exact ih ((h.addNode hword hp _ _).addEdge _) hps

theorem within_declare {f : DataFlow} (h : f.graph.Within P) {name : String} (line : Nat)
    {parameters : List String} (hnames : ∀ s ∈ name :: parameters, Within P s) :
    (f.declare name line parameters).1.graph.Within P := by
  have hword : Within P "function" := within_word hP (by decide)
  obtain ⟨hname, hparameters⟩ := List.forall_mem_cons.mp hnames
  exact within_addParameters hP (h.addNode hword hname _ _) _ _ hparameters

theorem within_bindingNode (binding : Binding) : Within P (bindingNode binding).1 := by
  refine within_word hP ?_
  cases binding <;> decide

/-- **An event adds the names that it speaks of**, and no others. -/
theorem within_record {f : DataFlow} (h : f.graph.Within P) {e : Event}
    (hnames : ∀ s ∈ e.names, Within P s) : (f.record e).graph.Within P := by
  cases e with
  | enter name line parameters =>
    rw [record, enter_eq]
    unfold prepare
    split
    · exact h
    · exact within_declare hP h line hnames
  | define bound =>
    exact h.addNode (within_bindingNode hP _) (hnames _ (List.mem_singleton_self _)) _ _
  | read name line =>
    have hword : Within P "use" := within_word hP (by decide)
    rw [record, DataFlow.read]
    split
    · exact h
    · exact (h.addNode hword (hnames _ (List.mem_singleton_self _)) _ _).addEdge _

/-- **The run**: a data-flow graph has the names of declared functions and of events. -/
theorem within_synthesize (fe : FrontEnd) {functions : List FunctionInfo} {d : Document}
    (hfunctions : ∀ f ∈ functions, ∀ s ∈ f.name :: f.parameters, Within P s)
    (hflow : ∀ e ∈ d.flow fe, ∀ s ∈ e.names, Within P s) :
    (synthesize fe functions d).Within P := by
  have hdeclared : (declareAll functions).graph.Within P :=
    List.foldlRecOn functions _ (motive := fun f : DataFlow => f.graph.Within P) Graph.within_empty
      fun f hf i hi => within_declare hP hf i.line (hfunctions i hi)
  have hrecorded : ((d.flow fe).foldl record (declareAll functions)).graph.Within P :=
    List.foldlRecOn (d.flow fe) _ (motive := fun f : DataFlow => f.graph.Within P) hdeclared
      fun f hf e he => within_record hP hf (hflow e he)
  rw [synthesize]
  split
  · exact Graph.within_placeholder (within_word hP (by decide)) (within_word hP (by decide)) _
  · exact hrecorded

end DataFlow

/-! ## 3. Call graphs -/

namespace CallGraph

theorem within_frame {f : FunctionInfo} (hf : Within P f.name) (i : Nat) :
    ∀ v ∈ frame i f, Within P v.type ∧ Within P v.label := by
  have hfunction : Within P "function" := within_word hP (by decide)
  have hentry : Within P "entry" ∧ Within P "_entry" :=
    ⟨within_word hP (by decide), within_word hP (by decide)⟩
  have hexit : Within P "exit" ∧ Within P "_exit" :=
    ⟨within_word hP (by decide), within_word hP (by decide)⟩
  simp only [frame, List.forall_mem_cons, Text.within_append]
  exact ⟨⟨hfunction, hf⟩, ⟨hentry.1, hf, hentry.2⟩, ⟨hexit.1, hf, hexit.2⟩, by simp⟩

/-- A call graph has the names of declared functions. -/
theorem within_synthesize (fe : FrontEnd) {functions : List FunctionInfo} (d : Option Document)
    (hfunctions : ∀ f ∈ functions, Within P f.name) : (synthesize fe functions d).Within P := by
  have hprogram : Within P "program" ∧ Within P globalLabel :=
    ⟨within_word hP (by decide), within_word hP (by decide)⟩
  obtain ⟨hnone, hshape⟩ := synthesize_isFramed fe functions d
  rcases hshape with hnil | ⟨hframed, -⟩
  · rw [Graph.Within, (hnone.mpr hnil).1]
    simp only [List.forall_mem_singleton]
    exact ⟨within_word hP (by decide), within_word hP (by decide)⟩
  · intro v hv
    rw [hframed.nodes] at hv
    rcases List.mem_append.mp hv with hv | hv
    · obtain ⟨i, hi, hv⟩ := mem_frames.mp hv
      exact within_frame hP (hfunctions _ (mem_of_mem_firsts (List.getElem_mem hi))) i v hv
    · rcases hframed.caller with hcaller | hcaller
      · rw [hcaller] at hv
        cases hv
      · rw [hcaller] at hv
        rw [List.mem_singleton.mp hv]
        exact hprogram

end CallGraph

end Legal

/-! ## 4. Outlines -/

/-- The text that the rule of a kind gives is spelled in the document, or it is the kind itself. -/
theorem FrontEnd.SpellsNames.fullLabel {fe : FrontEnd} (hfe : fe.SpellsNames) {d : Document}
    {n : Node} {label : String} (h : fe.fullLabel d n = .ok label) :
    d.Spells label ∨ label = n.kind := by
  unfold FrontEnd.fullLabel at h
  split at h
  · exact Or.inr (Except.ok.inj h).symm
  · exact Or.inl (spells_of_map_textOf Text.firstLine_subset h)
  · split at h
    · rename_i name hname
      obtain rfl := Except.ok.inj h
      exact Or.inl (hfe.callee hname)
    · cases h
  · exact Or.inl (spells_of_fieldText h)
  · exact Or.inl (spells_of_map_textOf Text.importPath_subset h)

/-- The trees of the nodes inside a node are below the tree of that node. -/
theorem Syntax.Node.IsInside.tree_mem_nodes {n m : Node} (h : n.IsInside m) :
    m.tree ∈ n.tree.nodes := by
  induction h with
  | self => exact n.tree.mem_nodes_self
  | @child m c _ hc ih =>
    obtain ⟨t, ht, rfl⟩ := List.mem_map.mp hc
    exact Tree.nodes_subset_of_mem_nodes ih (Tree.mem_nodes_of_mem_children ht t.mem_nodes_self)

/-- A document and the kinds in its tree are of a class. -/
structure Syntax.Document.Within (P : Char → Prop) (d : Document) : Prop where
  text : Text.Within P d.text
  kinds : ∀ t ∈ d.tree.nodes, Text.Within P t.info.kind

theorem Syntax.Document.Within.kind {d : Document} (h : d.Within P) {n : Node}
    (hn : d.root.IsInside n) : Text.Within P n.kind :=
  h.kinds _ (d.isInside_root.trans hn).tree_mem_nodes

section Legal

variable (hP : ∀ c, IsXmlChar c → P c) {fe : FrontEnd} {d : Document} (hfe : fe.SpellsNames)
  (hd : d.Within P)
include hP hfe hd

theorem within_label {n : Node} (hn : d.root.IsInside n) (labelLength : Nat) :
    Within P (fe.label labelLength d n) := by
  unfold FrontEnd.label
  split
  · rename_i label hlabel
    refine Within.truncate hP ?_ labelLength
    rcases hfe.fullLabel hlabel with hspelled | rfl
    · exact hspelled.mono hd.text
    · exact hd.kind hn
  · exact hd.kind hn

/-- An outline has the kinds of its nodes and what is spelled in the text. -/
theorem Outline.within_build (limit labelLength : Nat) :
    (build fe limit labelLength d).graph.Within P := by
  obtain ⟨ns, hinside, hmade⟩ := build_isMadeOf fe limit labelLength d
  intro v hv
  rw [hmade.nodes, List.mem_mapIdx] at hv
  obtain ⟨i, hi, rfl⟩ := hv
  have hn := hinside _ (List.getElem_mem hi)
  exact ⟨hd.kind hn, within_label hP hfe hd hn labelLength⟩

/-- Whatever is drawn of a document has the kinds of its nodes and what is spelled in the text. -/
theorem Pipeline.within_draw (hdeclares : fe.DeclaresSteps) (limit labelLength : Nat)
    (diagram : DiagramKind) : (draw fe limit labelLength diagram d).1.Within P := by
  have hfunctions : ∀ f ∈ (Outline.build fe limit labelLength d).declarations.functions,
      ∀ s ∈ f.name :: f.parameters, Within P s := by
    intro f hf s hs
    obtain ⟨n, ds, -, hds, hfds⟩ := Outline.exists_declares_of_mem_build hf
    exact (spells_of_declares hfe hdeclares hds hfds hs).mono hd.text
  cases diagram with
  | outline => exact Outline.within_build hP hfe hd limit labelLength
  | callGraph =>
    exact CallGraph.within_synthesize hP fe _ fun f hf => hfunctions f hf _ List.mem_cons_self
  | dataFlow =>
    exact DataFlow.within_synthesize hP fe hfunctions fun e he s hs =>
      (spells_of_mem_flow hfe he hs).mono hd.text

end Legal

/-! ## 5. Errors -/

section Legal

variable (hP : ∀ c, IsXmlChar c → P c)
include hP

theorem within_skippedFault {text : String} (htext : Within P text) (info : Info) :
    Within P (skippedFault text info).message := by
  have hquoted : Within P (((Text.slice text info.start info.stop).map snippet).getD "") := by
    cases hpart : Text.slice text info.start info.stop with
    | none => exact within_word hP (by decide)
    | some part => exact (htext.slice hpart).snippet
  unfold skippedFault
  generalize ((Text.slice text info.start info.stop).map snippet).getD "" = quoted at hquoted
  dsimp only
  split
  · exact within_word hP (s := "invalid syntax") (by decide)
  · unfold SyntaxFault.message
    simp only [Text.within_append]
    exact ⟨⟨within_word hP (by decide), hquoted⟩, within_word hP (by decide)⟩

/-- What is told of the fault at a node is its kind or quoted from the text. -/
theorem within_faultOf {text : String} (htext : Within P text) {t : Tree}
    (hkind : Within P t.info.kind) : Within P (faultOf text t).fault.message := by
  cases hmissing : t.info.missing with
  | true =>
    simp only [faultOf, hmissing, if_true]
    unfold SyntaxFault.message
    simp only [Text.within_append]
    exact ⟨⟨within_word hP (by decide), hkind⟩, within_word hP (by decide)⟩
  | false =>
    simp only [faultOf, hmissing, Bool.false_eq_true, if_false]
    exact within_skippedFault hP htext t.info

theorem within_syntaxError? {text : String} {tree : Tree} (htext : Within P text)
    (hkinds : ∀ t ∈ tree.nodes, Within P t.info.kind) {e : SyntaxError}
    (h : syntaxError? text tree = some e) : Within P e.message := by
  have hmessage : Within P e.fault.message := by
    unfold syntaxError? at h
    split at h
    · obtain rfl := Option.some.inj h
      cases hfound : firstFault? text tree with
      | none => exact within_word hP (s := "invalid syntax") (by decide)
      | some fault =>
        obtain ⟨t, ht, rfl⟩ := exists_of_firstFault? hfound
        exact within_faultOf hP htext (hkinds t ht)
    · cases h
  unfold SyntaxError.message
  simp only [Text.within_append]
  have hline := within_word hP (Text.isXmlChar_toString e.line)
  exact ⟨⟨⟨within_word hP (by decide), hline⟩, within_word hP (by decide)⟩, hmessage⟩

end Legal

/-! ## 6. Requests -/

/-- A grammar answers with kinds of a class. -/
def Syntax.Grammar.Within (P : Char → Prop) (grammar : Grammar) : Prop :=
  ∀ text, ∀ t ∈ (grammar text).nodes, Text.Within P t.info.kind

theorem within_document {grammar : Grammar} (hgrammar : grammar.Within P) (l : Language)
    {text : String} (htext : Within P text) : (l.document grammar text).Within P :=
  ⟨htext, hgrammar text⟩

/-- The second attempt is read in the same class as the first. -/
theorem within_retry? (hP : ∀ c, IsXmlChar c → P c) {grammar : Grammar}
    (hgrammar : grammar.Within P) (l : Language) {text : String} (htext : Within P text) :
    ∀ d ∈ l.retry? grammar text, d.Within P := by
  intro d hd
  unfold Language.retry? at hd
  split at hd
  · split at hd
    · cases hd
    · obtain rfl := Option.some.inj hd
      exact within_document hgrammar .python (htext.dedent hP)
  · obtain rfl := Option.some.inj hd
    exact ⟨htext.wrap hP, hgrammar _⟩

/-- **What a front end reads** is a document in the class of the source, and what it tells of an
error is in it too. -/
theorem within_parse (hP : ∀ c, IsXmlChar c → P c) {grammar : Grammar}
    (hgrammar : grammar.Within P) (l : Language) {source : String} (hsource : Within P source) :
    match l.frontEnd.parse grammar source with
    | .ok d => d.Within P
    | .error e => Within P e.message := by
  have hfirst := within_document hgrammar l (hsource.normalize hP)
  have hretry := within_retry? hP hgrammar l (hsource.normalize hP)
  rw [parse_eq_firstRead]
  generalize l.document grammar (Text.normalize source) = first at hfirst
  generalize l.retry? grammar (Text.normalize source) = retry at hretry
  unfold firstRead
  cases herror : first.error? with
  | none => exact hfirst
  | some e =>
    cases hfound : retry.filter (·.error?.isNone) with
    | some d => exact hretry d (Option.filter_eq_some_iff.mp hfound).1
    | none => exact within_syntaxError? hP hfirst.text hfirst.kinds herror

namespace Pipeline

/-- **The graph of an answer** has no other characters than the source, the kinds of the grammar and
an XML document may have. -/
theorem within_run (hP : ∀ c, IsXmlChar c → P c) {p : Pipeline} {request : DiagramRequest}
    {v : Visualization}
    (hfind : p.registry.find request.language = .ok request.language.frontEnd)
    (hgrammar : (p.grammar request.language).Within P) (hsource : Within P request.source)
    (h : p.run request = .ok v) : v.graph.Within P := by
  obtain ⟨w, hw, hdrawn⟩ := run_of_find p request hfind
  obtain rfl : w = v := Except.ok.inj (hw.symm.trans h)
  rw [show w.graph = (p.drawing request request.language.frontEnd).1 from
    congrArg Prod.fst hdrawn]
  have hparsed := within_parse hP hgrammar request.language hsource
  cases hparse : request.language.frontEnd.parse (p.grammar request.language) request.source with
  | ok d =>
    rw [hparse] at hparsed
    rw [drawing_of_ok p request hparse]
    exact within_draw hP request.language.spellsNames_frontEnd hparsed
      request.language.declaresSteps_frontEnd _ _ _
  | error e =>
    rw [hparse] at hparsed
    rw [drawing_of_error p request hparse]
    exact Graph.within_placeholder (within_word hP (by decide)) hparsed _

end Pipeline

end CodeDiagram
