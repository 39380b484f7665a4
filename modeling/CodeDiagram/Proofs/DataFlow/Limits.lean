/-
# Data flow at different depths

Functions down to a depth are known before the walk, and the others are declared when they are
entered.  So the depth decides when the nodes of parameters are added and which identities all nodes
get, but not what a use is linked to (`synthesize_limits`), as long as no two functions share a name
and a line.

`Ledger` keeps what can be said of the links without identities: it is filled by the events alone,
and no function is known to it beforehand.  A graph in progress follows the ledger
(`Follows.record`), with whatever functions it has started, if every function that is entered has
the parameters that the function of its name and line was declared with.
-/
import CodeDiagram.Proofs.DataFlow.Labels

namespace CodeDiagram

open Syntax

/-! ## 1. Links -/

namespace Graph

/-- What a node shows besides its kind. -/
structure Face where
  type : String
  label : String
  line : Option Nat
deriving DecidableEq, Repr

/-- What a node shows. -/
def Vertex.face (v : Vertex) : Face := ⟨v.type, v.label, v.line⟩

/-- A definition with a use of it. -/
structure Link where
  definition : Face
  label : String
  line : Option Nat
deriving DecidableEq, Repr

/-- What an edge links. -/
def link? (g : Graph) (e : Edge) : Option Link := do
  let v ← g.node? e.source
  let w ← g.node? e.target
  return ⟨v.face, w.label, w.line⟩

/-- What the edges from definitions to uses link, in order. -/
def links (g : Graph) : List (Option Link) := g.definesEdges.map g.link?

/-- The kinds of nodes that come from what a text binds and reads. -/
def tracedKinds : List NodeKind := [.field, .variableDecl, .useSite]

/-- What the nodes of these kinds show, in order. -/
def traced (g : Graph) : List Face :=
  (g.nodes.filter (tracedKinds.contains ·.kind)).map Vertex.face

variable {g g' : Graph}

theorem Sound.node?_eq_some_iff (h : g.Sound) {id : NodeId} {v : Vertex} :
    g.node? id = some v ↔ v ∈ g.nodes ∧ v.id = id := by
  constructor
  · intro hv
    have hid := List.find?_some (p := fun u : Vertex => u.id == id) hv
    exact ⟨List.mem_of_find?_eq_some hv, beq_iff_eq.mp hid⟩
  · rintro ⟨hv, rfl⟩
    cases hfound : g.node? v.id with
    | none => exact absurd (beq_self_eq_true v.id) (List.find?_eq_none.mp hfound v hv)
    | some w =>
      have hid := List.find?_some (p := fun u : Vertex => u.id == v.id) hfound
      rw [h.eq_of_id_eq (List.mem_of_find?_eq_some hfound) hv (beq_iff_eq.mp hid)]

/-- What an edge links stays the same when nodes are added. -/
theorem Sound.link?_eq (h : g.Sound) (h' : g'.Sound) (hg : ∀ v ∈ g.nodes, v ∈ g'.nodes) {e : Edge}
    (he : e ∈ g.edges) : g'.link? e = g.link? e := by
  have hend : ∀ id ∈ g.ids, g'.node? id = g.node? id := by
    intro id hid
    obtain ⟨v, hv, rfl⟩ := List.mem_map.mp hid
    rw [h'.node?_eq_some_iff.mpr ⟨hg v hv, rfl⟩, h.node?_eq_some_iff.mpr ⟨hv, rfl⟩]
  obtain ⟨hs, ht⟩ := h.joined e he
  rw [link?, link?, hend _ hs, hend _ ht]

theorem Sound.map_link?_eq (h : g.Sound) (h' : g'.Sound) (hg : ∀ v ∈ g.nodes, v ∈ g'.nodes) :
    g.definesEdges.map g'.link? = g.links :=
  List.map_congr_left fun _ he => h.link?_eq h' hg (mem_definesEdges.mp he).1

theorem Quiet.links (h : g.Quiet g') (hs : g.Sound) : g'.links = g.links := by
  rw [Graph.links, h.defines]
  exact hs.map_link?_eq (h.sound hs) h.nodes

theorem traced_addNode (g : Graph) (type : String) (kind : NodeKind) (label : String)
    (line : Option Nat) : (g.addNode type kind label line).1.traced =
      g.traced ++ if tracedKinds.contains kind then [⟨type, label, line⟩] else [] := by
  rw [traced, nodes_addNode, List.filter_append, List.map_append, ← traced, List.filter_singleton]
  cases tracedKinds.contains kind with
  | true => rfl
  | false => rfl

theorem traced_addEdge (g : Graph) (e : Edge) : (g.addEdge e).traced = g.traced := by
  rw [traced, nodes_addEdge, traced]

/-- A node of an identity shows something. -/
def Shows (g : Graph) (id : NodeId) (face : Face) : Prop := ∃ v ∈ g.nodes, v.id = id ∧ v.face = face

theorem Shows.mono {id : NodeId} {face : Face} (h : Shows g id face)
    (hg : ∀ v ∈ g.nodes, v ∈ g'.nodes) : Shows g' id face := by
  obtain ⟨v, hv, hrest⟩ := h
  exact ⟨v, hg v hv, hrest⟩

end Graph

namespace DataFlow

open CodeDiagram.Graph

/-! ## 2. What is linked, read off the events -/

/-- What a definition shows. -/
def boundFace (b : BoundName) : Face := ⟨(bindingNode b.binding).1, b.name, some b.line⟩

/-- What a parameter of a function on a line shows. -/
def parameterFace (line : Nat) (p : String) : Face := ⟨"parameter", p, some line⟩

/-- What was bound, linked and traced so far. -/
structure Ledger where
  latest : List (String × Face) := []
  links : List Link := []
  traced : List Face := []
deriving DecidableEq, Repr

/-- Takes down an event: what is bound is the latest of its name, and a read of a name is linked to
the latest. -/
def Ledger.record (l : Ledger) : Event → Ledger
  | .enter _ line parameters =>
    { l with latest := (parameters.map fun p => (p, parameterFace line p)).reverse ++ l.latest }
  | .define b =>
    { l with
      latest := (b.name, boundFace b) :: l.latest
      traced := l.traced ++ if tracedKinds.contains (bindingNode b.binding).2 then [boundFace b]
        else [] }
  | .read name line =>
    match l.latest.lookup name with
    | none => l
    | some face =>
      { l with
        links := l.links ++ [⟨face, name, some line⟩]
        traced := l.traced ++ [⟨"use", name, some line⟩] }

/-- What events leave in a ledger. -/
def ledgerOf (events : List Event) : Ledger := events.foldl Ledger.record {}

/-- A graph in progress shows what a ledger says, and what its functions have for parameters. -/
structure Follows (parameters : String × Nat → List String) (f : DataFlow) (l : Ledger) :
    Prop where
  known : f.Known
  latest : List.Forall₂ (fun p q => p.1 = q.1 ∧ Shows f.graph p.2 q.2) f.definitions l.latest
  declared : ∀ p ∈ f.declared,
    List.Forall₂ (Shows f.graph) p.2 ((parameters p.1).map (parameterFace p.1.2))
  links : f.graph.links = l.links.map some
  traced : f.graph.traced = l.traced

section Steps

variable {parameters : String × Nat → List String} {f : DataFlow} {l : Ledger}

/-- Parameters are shown by their nodes, in order. -/
theorem addParameters_shows (function : NodeId) (line : Nat) (g : Graph) (ps : List String) :
    List.Forall₂ (Shows (addParameters function line g ps).1)
      (addParameters function line g ps).2 (ps.map (parameterFace line)) := by
  induction ps generalizing g with
  | nil => exact .nil
  | cons p ps ih =>
    refine .cons ?_ (ih _)
    have hnew : Shows (g.addNode "parameter" .parameter p (some line)).1 g.nextId
        (parameterFace line p) := ⟨_, List.mem_append_right _ List.mem_cons_self, rfl, rfl⟩
    refine hnew.mono fun v hv => (addParameters_quiet function line _ ps).1.nodes v ?_
    rw [nodes_addEdge]
    exact hv

theorem traced_addParameters (function : NodeId) (line : Nat) (g : Graph) (ps : List String) :
    (addParameters function line g ps).1.traced = g.traced := by
  induction ps generalizing g with
  | nil => rfl
  | cons p ps ih =>
    rw [addParameters]
    dsimp only
    rw [ih, traced_addEdge, traced_addNode]
    exact List.append_nil _

/-- **Declaring a function** leaves the links and what is traced. -/
theorem Follows.declare (h : f.Follows parameters l) (name : String) (line : Nat) :
    (f.declare name line (parameters (name, line))).1.Follows parameters l ∧
      List.Forall₂ (Shows (f.declare name line (parameters (name, line))).1.graph)
        (f.declare name line (parameters (name, line))).2
        ((parameters (name, line)).map (parameterFace line)) := by
  have hquiet := (declare_quiet f name line (parameters (name, line))).1
  have hshows := addParameters_shows f.graph.nextId line
    (f.graph.addNode "function" .function name (some line)).1 (parameters (name, line))
  refine ⟨⟨h.known.declare name line _, ?_, ?_, ?_, ?_⟩, hshows⟩
  · exact h.latest.imp fun _ _ hpq => ⟨hpq.1, hpq.2.mono hquiet.nodes⟩
  · intro p hp
    rcases List.mem_cons.mp hp with rfl | hp
    · exact hshows
    · exact (h.declared p hp).imp fun _ _ hid => hid.mono hquiet.nodes
  · rw [hquiet.links h.known.sound, h.links]
  · rw [DataFlow.declare]
    dsimp only
    rw [traced_addParameters, traced_addNode, h.traced]
    exact List.append_nil _

/-- A function that is about to be entered has its parameters, however it was declared. -/
theorem Follows.prepare (h : f.Follows parameters l) (name : String) (line : Nat) :
    (f.prepare name line (parameters (name, line))).1.Follows parameters l ∧
      List.Forall₂ (Shows (f.prepare name line (parameters (name, line))).1.graph)
        (f.prepare name line (parameters (name, line))).2
        ((parameters (name, line)).map (parameterFace line)) := by
  unfold DataFlow.prepare
  split
  · rename_i ids hids
    obtain ⟨before, after, hsplit, -⟩ := List.lookup_eq_some_iff.mp hids
    exact ⟨h, h.declared ((name, line), ids) (by simp [hsplit])⟩
  · exact h.declare name line

theorem Follows.enter (h : f.Follows parameters l) (name : String) (line : Nat) :
    (f.record (.enter name line (parameters (name, line)))).Follows parameters
      (l.record (.enter name line (parameters (name, line)))) := by
  have hknown := h.known.record (.enter name line (parameters (name, line)))
  obtain ⟨hf, hids⟩ := h.prepare name line
  have hnew := List.rel_reverse (zip_forall₂ hids (parameters (name, line)))
  rw [← List.map_prod_left_eq_zip] at hnew
  rw [DataFlow.record, enter_eq] at hknown ⊢
  exact ⟨hknown, List.rel_append hnew hf.latest, hf.declared, hf.links, hf.traced⟩

theorem Follows.define (h : f.Follows parameters l) (b : BoundName) :
    (f.record (.define b)).Follows parameters (l.record (.define b)) := by
  have hquiet := record_quiet f (e := .define b) (by simp)
  have hnew : Shows (f.record (.define b)).graph f.graph.nextId (boundFace b) :=
    ⟨_, List.mem_append_right _ List.mem_cons_self, rfl, rfl⟩
  refine ⟨h.known.record _, .cons ⟨rfl, hnew⟩ ?_, ?_, ?_, ?_⟩
  · exact h.latest.imp fun _ _ hpq => ⟨hpq.1, hpq.2.mono hquiet.nodes⟩
  · exact fun p hp => (h.declared p hp).imp fun _ _ hid => hid.mono hquiet.nodes
  · rw [hquiet.links h.known.sound, h.links]
    rfl
  · rw [graph_record_define, traced_addNode, h.traced]
    rfl

/-- A read is linked to a node that shows what the ledger has for the name. -/
theorem Follows.read (h : f.Follows parameters l) (name : String) (line : Nat) :
    (f.record (.read name line)).Follows parameters (l.record (.read name line)) := by
  have hfound := lookup_forall₂ h.latest name
  cases hd : f.definitions.lookup name with
  | none =>
    rw [hd] at hfound
    have hnone : l.latest.lookup name = none := by
      generalize l.latest.lookup name = found at hfound
      cases hfound
      rfl
    rw [record_read_of_none hd, Ledger.record, hnone]
    exact h
  | some id =>
    obtain ⟨face, hface, v, hv, hid, hshown⟩ : ∃ face, l.latest.lookup name = some face ∧
        Shows f.graph id face := by
      rw [hd] at hfound
      generalize l.latest.lookup name = found at hfound ⊢
      cases hfound with
      | some hshows => exact ⟨_, rfl, hshows⟩
    have hknown := h.known.record (.read name line)
    have hnodes := nodes_record f (.read name line)
    have hadded := (record_read_of_some h.known hd line).1
    have huse : (⟨f.graph.nextId, "use", .useSite, name, some line⟩ : Vertex) ∈
        (f.record (.read name line)).graph.nodes := by
      rw [hadded]
      exact List.mem_append_right _ List.mem_cons_self
    have hlink : (f.record (.read name line)).graph.link? ⟨id, f.graph.nextId, some .defines⟩ =
        some ⟨face, name, some line⟩ := by
      rw [link?, hknown.sound.node?_eq_some_iff.mpr ⟨hnodes v hv, hid⟩,
        hknown.sound.node?_eq_some_iff.mpr ⟨huse, rfl⟩, ← hshown]
      rfl
    have hdeclared : (f.record (.read name line)).declared = f.declared := by
      rw [DataFlow.record, DataFlow.read, hd]
    rw [Ledger.record, hface]
    refine ⟨hknown, ?_, ?_, ?_, ?_⟩
    · rw [definitions_record]
      exact h.latest.imp fun _ _ hpq => ⟨hpq.1, hpq.2.mono hnodes⟩
    · rw [hdeclared]
      exact fun p hp => (h.declared p hp).imp fun _ _ hshows => hshows.mono hnodes
    · rw [Graph.links, defines_record h.known, useOf, hd, List.map_append,
        h.known.sound.map_link?_eq hknown.sound hnodes, h.links, List.map_append]
      exact congrArg _ (congrArg (· :: []) hlink)
    · rw [Graph.traced, hadded, List.filter_append, List.map_append, ← Graph.traced, h.traced]
      rfl

/-- **An event** is shown in the graph as it is taken down in the ledger. -/
theorem Follows.record (h : f.Follows parameters l) (e : Event)
    (he : ∀ name line ps, e = .enter name line ps → ps = parameters (name, line)) :
    (f.record e).Follows parameters (l.record e) := by
  cases e with
  | enter name line ps =>
    obtain rfl := he name line ps rfl
    exact h.enter name line
  | define b => exact h.define b
  | read name line => exact h.read name line

/-- **The run**: a graph follows the ledger along all events. -/
theorem Follows.run (h : f.Follows parameters l) (events : List Event)
    (he : ∀ name line ps, .enter name line ps ∈ events → ps = parameters (name, line)) :
    (events.foldl DataFlow.record f).Follows parameters (events.foldl Ledger.record l) := by
  induction events generalizing f l with
  | nil => exact h
  | cons e events ih =>
    refine ih (h.record e fun name line ps heq => ?_) fun name line ps hmem => ?_
    · exact he name line ps (heq ▸ List.mem_cons_self)
    · exact he name line ps (List.mem_cons_of_mem _ hmem)

/-- A graph of functions only shows nothing that events would leave. -/
theorem Follows.declareAll {functions : List FunctionInfo}
    (h : ∀ i ∈ functions, i.parameters = parameters (i.name, i.line)) :
    (declareAll functions).Follows parameters {} := by
  have hrun : ∀ (fs : List FunctionInfo) (f : DataFlow), (∀ i ∈ fs, i ∈ functions) →
      f.Follows parameters {} →
        (fs.foldl (fun f i => (f.declare i.name i.line i.parameters).1) f).Follows
          parameters {} := by
    intro fs
    induction fs with
    | nil => exact fun f _ hf => hf
    | cons i fs ih =>
      intro f hfs hf
      refine ih _ (fun j hj => hfs j (List.mem_cons_of_mem _ hj)) ?_
      have hnext := (hf.declare i.name i.line).1
      rwa [← h i (hfs i List.mem_cons_self)] at hnext
  exact hrun functions {} (fun _ hi => hi)
    ⟨known_empty, .nil, by simp, rfl, rfl⟩

end Steps

/-! ## 3. The finished graph -/

/-- **The links of a document are read off its events**, whatever functions are known beforehand, if
those of one name and line have the same parameters. -/
theorem links_synthesize {fe : FrontEnd} {functions : List FunctionInfo} {d : Document}
    (h : DeclarationsAgree functions (fe.evaluate d d.root)) :
    (synthesize fe functions d).links = (ledgerOf (fe.evaluate d d.root)).links.map some ∧
      (synthesize fe functions d).traced = (ledgerOf (fe.evaluate d d.root)).traced := by
  have hstart : (declareAll functions).Follows
      (fun key => declaredWith functions (fe.evaluate d d.root) key.1 key.2) {} :=
    .declareAll fun i hi => (h.declaredWith_eq (List.mem_append_left _
      (List.mem_reverse.mpr (List.mem_map.mpr ⟨i, hi, rfl⟩)))).symm
  have hend := hstart.run (fe.evaluate d d.root) fun name line ps he =>
    (h.declaredWith_eq
      (List.mem_append_right _ (List.mem_filterMap.mpr ⟨_, he, rfl⟩))).symm
  obtain ⟨hs, hnodes, -, hdefines⟩ := synthesize_shows fe functions d
  rw [flow_eq_evaluate, ← foldl_record_eq] at hnodes hdefines
  constructor
  · rw [Graph.links, hdefines, hend.known.sound.map_link?_eq hs hnodes, hend.links]
    rfl
  · rw [synthesize, flow_eq_evaluate]
    split
    · -- the message is shown instead of no node at all
      rename_i hempty
      rw [ledgerOf, ← hend.traced, Graph.traced, Graph.traced, List.isEmpty_iff.mp hempty]
      rfl
    · exact hend.traced

/-! ## 4. Two limits -/

/-- If no two functions share a name and a line, those that do have the same parameters. -/
theorem functionsAgree_of_nodup {fe : FrontEnd} {d : Document}
    (h : ((fe.functionsIn d).map (·.1)).Nodup) : FunctionsAgree fe d := by
  intro n m name line ps qs hn hm hps hqs
  have heq := List.inj_on_of_nodup_map h (mem_functionsIn hn hps) (mem_functionsIn hm hqs) rfl
  exact congrArg Prod.snd heq

/-- What an outline declares and what is entered have the same parameters then. -/
theorem declarations_agree {fe : FrontEnd} {d : Document} (hfe : fe.IsLawful)
    (hdeclares : fe.DeclaresSteps) (h : FunctionsAgree fe d) (limit labelLength : Nat) :
    DeclarationsAgree (Outline.build fe limit labelLength d).declarations.functions
      (fe.evaluate d d.root) := by
  intro p hp q hq hpq
  obtain ⟨n, hn, hnp⟩ := exists_function_of_mem_declarations hfe hdeclares hp
  obtain ⟨m, hm, hmq⟩ := exists_function_of_mem_declarations hfe hdeclares hq
  rw [← hpq] at hmq
  exact h n m _ _ _ _ hn hm hnp hmq

/-- **The data flow of a document is the same at every depth**: definitions and uses are linked
alike and in the same order, and fields, variables and uses are shown alike, if no two functions
share a name and a line. -/
theorem synthesize_limits (l : Language) (d : Document) (labelLength limit limit' : Nat)
    (h : ((l.frontEnd.functionsIn d).map (·.1)).Nodup) :
    let g := synthesize l.frontEnd
      (Outline.build l.frontEnd limit labelLength d).declarations.functions d
    let g' := synthesize l.frontEnd
      (Outline.build l.frontEnd limit' labelLength d).declarations.functions d
    g.links = g'.links ∧ none ∉ g.links ∧ g.traced = g'.traced := by
  have hagree := declarations_agree l.isLawful_frontEnd l.declaresSteps_frontEnd
    (functionsAgree_of_nodup h)
  obtain ⟨hlinks, htraced⟩ := links_synthesize (hagree limit labelLength)
  obtain ⟨hlinks', htraced'⟩ := links_synthesize (hagree limit' labelLength)
  exact ⟨hlinks.trans hlinks'.symm, by simp [hlinks], htraced.trans htraced'.symm⟩

/-- A function that reads its parameter and then has another function inside that does so too. -/
def nestedFunctions : Document where
  language := .python
  text := "def f(a):\n  a\n  def g(b):\n    return b\n"
  tree := (Tree.ofRecords? [
    ⟨0, "module", 0, 0, 39, none⟩, ⟨1, "function_definition", 0, 0, 38, none⟩,
    ⟨2, "def", 1, 0, 3, none⟩, ⟨2, "identifier", 0, 4, 5, "name"⟩,
    ⟨2, "parameters", 0, 5, 8, "parameters"⟩, ⟨3, "(", 1, 5, 6, none⟩,
    ⟨3, "identifier", 0, 6, 7, none⟩, ⟨3, ")", 1, 7, 8, none⟩, ⟨2, ":", 1, 8, 9, none⟩,
    ⟨2, "block", 0, 12, 38, "body"⟩, ⟨3, "expression_statement", 0, 12, 13, none⟩,
    ⟨4, "identifier", 0, 12, 13, none⟩, ⟨3, "function_definition", 0, 16, 38, none⟩,
    ⟨4, "def", 1, 16, 19, none⟩, ⟨4, "identifier", 0, 20, 21, "name"⟩,
    ⟨4, "parameters", 0, 21, 24, "parameters"⟩, ⟨5, "(", 1, 21, 22, none⟩,
    ⟨5, "identifier", 0, 22, 23, none⟩, ⟨5, ")", 1, 23, 24, none⟩, ⟨4, ":", 1, 24, 25, none⟩,
    ⟨4, "block", 0, 30, 38, "body"⟩, ⟨5, "return_statement", 0, 30, 38, none⟩,
    ⟨6, "return", 1, 30, 36, none⟩, ⟨6, "identifier", 0, 37, 38, none⟩]).getD default

/-- At a small depth the inner function is only declared when it is entered, behind the first use,
and the identities differ; what is linked does not. -/
theorem synthesize_limits_nestedFunctions :
    let g limit := synthesize Python.frontEnd
      (Outline.build Python.frontEnd limit 40 nestedFunctions).declarations.functions
      nestedFunctions
    (g 2).links = (g 9).links ∧ (g 2).traced = (g 9).traced ∧
      (g 2).definesEdges = [⟨1, 2, some .defines⟩, ⟨4, 5, some .defines⟩] ∧
      (g 9).definesEdges = [⟨1, 4, some .defines⟩, ⟨3, 5, some .defines⟩] := by
  obtain ⟨hlinks, -, htraced⟩ :=
    synthesize_limits .python nestedFunctions 40 2 9 (by decide +kernel)
  exact ⟨hlinks, htraced, by decide +kernel, by decide +kernel⟩

end DataFlow

end CodeDiagram
