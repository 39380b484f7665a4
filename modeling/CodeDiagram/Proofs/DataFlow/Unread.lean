/-
# Names that are declared are not read

The walk comes to an identifier only from the node that it is a child of, so it comes to the name of
a declaration exactly if it comes to the declaration and the step there leads to the name
(`mem_trail_name_iff`).  Every use in the graph is one of a visited node (`exists_isUseOf`).  So no
declared name is read (`NamesUnread`), except those of the declarations that are walked through
(`namesUnread_iff`): of types of annotations, for parameters are never come to where the grammar
puts them (`ParametersInPlace`).  `annotationName_read` is a text where that happens.
-/
import CodeDiagram.Proofs.DataFlow.Uses
import CodeDiagram.Proofs.FrontEnd.Functions
import CodeDiagram.Proofs.FrontEnd.Naming

namespace CodeDiagram

open Syntax

/-! ## 1. How the walk comes to a node -/

section Trail

variable {fe : FrontEnd} {d : Document}

/-- A visited node is the first, or some visited node leads to it. -/
theorem exists_mem_ahead_of_mem_trail {r m : Node} (h : m ∈ fe.trail d r) :
    m = r ∨ ∃ n ∈ fe.trail d r, m ∈ fe.ahead d n := by
  induction r using FrontEnd.trail.induct fe d with
  | case1 r ih =>
    rw [FrontEnd.trail_eq] at h
    rcases List.mem_cons.mp h with rfl | h
    · exact Or.inl rfl
    · obtain ⟨c, hc, hm⟩ := List.mem_flatMap.mp h
      right
      rcases ih c hc hm with rfl | ⟨n, hn, hahead⟩
      · exact ⟨r, fe.mem_trail_self d r, hc⟩
      · exact ⟨n, FrontEnd.mem_trail_of_mem_ahead hc hn, hahead⟩

/-- What a visited node leads to is visited. -/
theorem mem_trail_of_mem_trail_of_mem_ahead {r n m : Node} (hn : n ∈ fe.trail d r)
    (hm : m ∈ fe.ahead d n) : m ∈ fe.trail d r :=
  (trail_sublist_of_mem hn).mem (FrontEnd.mem_trail_of_mem_ahead hm (fe.mem_trail_self d m))

/-- A child inside a node has one parent there. -/
theorem eq_of_mem_children {r a b c : Node} (hr : r.ids.Nodup) (ha : r.IsInside a)
    (hb : r.IsInside b) (hca : c ∈ a.children) (hcb : c ∈ b.children) : a = b := by
  obtain ⟨t, -, rfl⟩ := List.mem_map.mp hca
  obtain ⟨u, -, hu⟩ := List.mem_map.mp hcb
  have htree : a.tree = b.tree := (Option.some.inj (Node.mk.inj hu).2).symm
  exact ha.eq_of_id_eq hr hb (congrArg (·.info.id) htree)

/-- What is inside a child is not the node itself. -/
theorem ne_of_mem_children {r n c : Node} (hn : r.IsInside n) (hc : c ∈ n.children) : c ≠ r := by
  have hle : n.size ≤ r.size := by
    clear hc
    induction hn with
    | self => exact Nat.le_refl _
    | child _ hm ih => exact Nat.le_trans (Nat.le_of_lt (Node.size_lt_of_mem_children hm)) ih
  rintro rfl
  exact absurd (Node.size_lt_of_mem_children hc) (Nat.not_lt.mpr hle)

end Trail

/-! ## 2. Declared names -/

/-- A node of a document is a declaration, and an identifier is its name. -/
structure IsDeclaredName (l : Language) (d : Document) (n c : Node) : Prop where
  inside : d.root.IsInside n
  declaration : l.IsDeclaration n
  name : n.field? "name" = some c
  identifier : c.kind = "identifier"

section Names

variable {l : Language} {d : Document} {n c : Node}

/-- **When the walk comes to a declared name**: if it comes to the declaration and walks through
it. -/
theorem mem_trail_name_iff (hd : d.root.ids.Nodup) (h : IsDeclaredName l d n c) :
    c ∈ l.frontEnd.trail d d.root ↔
      n ∈ l.frontEnd.trail d d.root ∧ l.walksThrough n.kind = true ∧ c.isNamed = true := by
  have hfe := l.isLawful_frontEnd
  have hchild := Node.mem_children_of_field? h.name
  rw [← l.mem_ahead_name_iff h.declaration h.name h.identifier]
  constructor
  · intro hc
    rcases exists_mem_ahead_of_mem_trail hc with hroot | ⟨m, hm, hahead⟩
    · exact absurd hroot (ne_of_mem_children h.inside hchild)
    · have hparent := mem_children_of_mem_ahead hfe l.sparesIdentifiers_frontEnd hahead h.identifier
      have hsame := eq_of_mem_children hd (isInside_of_mem_trail hfe hm) h.inside hparent hchild
      rw [← hsame]
      exact ⟨hm, hahead⟩
  · rintro ⟨hn, hahead⟩
    exact mem_trail_of_mem_trail_of_mem_ahead hn hahead

/-- A node has an identifier for its name. -/
def HasName (n : Node) : Prop :=
  ∃ c, n.field? "name" = some c ∧ c.kind = "identifier" ∧ c.isNamed = true

/-- What is walked through is a declaration. -/
theorem isDeclaration_of_walksThrough (h : l.walksThrough n.kind = true) : l.IsDeclaration n := by
  cases l with
  | python => cases h
  | java =>
    simp only [Language.walksThrough, Bool.or_eq_true, beq_iff_eq] at h
    rcases h with h | h <;> rw [Language.IsDeclaration, h] <;> rfl

/-- **No declared name is visited** exactly if no visited declaration with a name is walked
through. -/
theorem names_unvisited_iff (hd : d.root.ids.Nodup) :
    (∀ n c, IsDeclaredName l d n c → c ∉ l.frontEnd.trail d d.root) ↔
      ∀ n ∈ l.frontEnd.trail d d.root, l.walksThrough n.kind = true → ¬ HasName n := by
  constructor
  · rintro h n hn hwalks ⟨c, hname, hc, hnamed⟩
    have hdeclared : IsDeclaredName l d n c :=
      ⟨isInside_of_mem_trail l.isLawful_frontEnd hn, isDeclaration_of_walksThrough hwalks, hname,
        hc⟩
    exact h n c hdeclared ((mem_trail_name_iff hd hdeclared).mpr ⟨hn, hwalks, hnamed⟩)
  · intro h n c hdeclared hc
    obtain ⟨hn, hwalks, hnamed⟩ := (mem_trail_name_iff hd hdeclared).mp hc
    exact h n hn hwalks ⟨c, hdeclared.name, hdeclared.identifier, hnamed⟩

end Names

/-! ## 3. Parameters in their places -/

/-- Parameters stand where the grammar puts them: in the list of a function, a record or a lambda
expression. -/
structure ParametersInPlace (d : Document) : Prop where
  root : d.root.kind ∉ ["formal_parameters", "formal_parameter"]
  parameter : ∀ n c, d.root.IsInside n → c ∈ n.children → c.kind = "formal_parameter" →
    n.kind = "formal_parameters"
  list : ∀ n c, d.root.IsInside n → c ∈ n.children → c.kind = "formal_parameters" →
    c.tree.info.field = some "parameters" ∧
      n.kind ∈ ["method_declaration", "constructor_declaration", "record_declaration",
        "lambda_expression"]

namespace Java

variable {d : Document}

/-- A visited node of Java is the first, or the child of a visited node that leads to it. -/
theorem exists_parent_of_mem_trail {m : Node} (h : m ∈ frontEnd.trail d d.root) :
    m = d.root ∨ ∃ n ∈ frontEnd.trail d d.root, d.root.IsInside n ∧ m ∈ n.children ∧
      m ∈ frontEnd.ahead d n := by
  rcases exists_mem_ahead_of_mem_trail h with hroot | ⟨n, hn, hahead⟩
  · exact Or.inl hroot
  · exact Or.inr ⟨n, hn, isInside_of_mem_trail isLawful hn, mem_children_of_mem_ahead hahead,
      hahead⟩

/-- A list of parameters is not evaluated with what has it. -/
theorem not_mem_ahead_parameters {n c : Node} (hfield : c.tree.info.field = some "parameters")
    (hkind : n.kind ∈ ["method_declaration", "constructor_declaration", "record_declaration",
      "lambda_expression"]) : c ∉ frontEnd.ahead d n := by
  have hbody : c ∉ (n.field? "body").toList := by
    intro hmem
    have := Node.field_of_field? (Option.mem_toList.mp hmem)
    rw [hfield] at this
    exact absurd this (by decide)
  simp only [List.mem_cons, List.not_mem_nil, or_false] at hkind
  rcases hkind with h | h | h | h
  · exact fun hmem => hbody (mem_body_of_mem_ahead (flowStep_function (by simp [h])) hmem)
  · exact fun hmem => hbody (mem_body_of_mem_ahead (flowStep_function (by simp [h])) hmem)
  · rwa [ahead_of_walk (flowStep_type (by simp [h]))]
  · have hlambda : flowStep d n = .walk (n.field? "body").toList := by
      simp only [flowStep, h]
    have hstep : frontEnd.flowStep d n = flowStep d n := rfl
    rwa [ahead_of_walk (hstep.trans hlambda)]

/-- **No parameter is visited** where the grammar puts them. -/
theorem kind_ne_parameter_of_mem_trail (hplace : ParametersInPlace d) {m : Node}
    (h : m ∈ frontEnd.trail d d.root) : m.kind ≠ "formal_parameter" := by
  have hlist : ∀ m ∈ frontEnd.trail d d.root, m.kind ≠ "formal_parameters" := by
    intro m hm hkind
    rcases exists_parent_of_mem_trail hm with rfl | ⟨n, -, hn, hchild, hahead⟩
    · exact hplace.root (by simp [hkind])
    · obtain ⟨hfield, hn⟩ := hplace.list n m hn hchild hkind
      exact not_mem_ahead_parameters hfield hn hahead
  intro hkind
  rcases exists_parent_of_mem_trail h with rfl | ⟨n, htrail, hn, hchild, -⟩
  · exact hplace.root (by simp [hkind])
  · exact hlist n htrail (hplace.parameter n m hn hchild hkind)

end Java

/-! ## 4. Uses -/

namespace DataFlow

open CodeDiagram.Graph

section Uses

variable {fe : FrontEnd} {functions : List FunctionInfo} {d : Document}

/-- A node of the graph is the use that is added for what the walk finds at a node of the
document. -/
def IsUseOf (fe : FrontEnd) (functions : List FunctionInfo) (d : Document) (m : Node)
    (u : Vertex) : Prop :=
  ∃ (j : Nat) (event : Event) (e : Edge), (fe.trace d d.root)[j]? = some (m, event) ∧
    useAt functions (fe.evaluate d d.root) j = some (u, e)

/-- A use of a node is a read of its name, on its line. -/
theorem IsUseOf.reference {m : Node} {u : Vertex} (h : IsUseOf fe functions d m u) :
    m ∈ fe.trail d d.root ∧ fe.flowStep d m = .reference u.label ∧ u.line = some (d.line m) := by
  obtain ⟨j, event, e, htrace, huse⟩ := h
  obtain ⟨x, line, id, hevent, -, rfl, -⟩ := useAt_eq_some_iff.mp huse
  have hmem := List.mem_of_getElem? htrace
  rw [FrontEnd.evaluate, List.getElem?_map, htrace] at hevent
  obtain rfl : event = .read x line := Option.some.inj hevent
  refine ⟨mem_trail_of_mem_trace hmem, ?_⟩
  have hfound := mem_findings_of_mem_trace hmem
  unfold FrontEnd.findings at hfound
  split at hfound
  · obtain ⟨b, -, hb⟩ := List.mem_map.mp hfound
    cases hb
  · cases List.mem_singleton.mp hfound
  · rename_i name hstep
    obtain ⟨rfl, rfl⟩ := Event.read.inj (List.mem_singleton.mp hfound)
    exact ⟨hstep, rfl⟩
  · cases hfound
  · cases hfound

/-- **Every use is one of a visited node.** -/
theorem exists_isUseOf {u : Vertex} (hu : u ∈ (synthesize fe functions d).nodesOf .useSite) :
    ∃ m, IsUseOf fe functions d m u := by
  obtain ⟨j, e, hj⟩ := ((mem_uses_synthesize fe functions d).1 u).mp hu
  rw [flow_eq_evaluate] at hj
  obtain ⟨x, line, id, hevent, -⟩ := useAt_eq_some_iff.mp hj
  rw [FrontEnd.evaluate, List.getElem?_map, Option.map_eq_some_iff] at hevent
  obtain ⟨⟨m, event⟩, htrace, -⟩ := hevent
  exact ⟨m, j, event, e, htrace, hj⟩

end Uses

/-- No declared name is read: the walk visits none, and no use is one of it. -/
structure NamesUnread (l : Language) (functions : List FunctionInfo) (d : Document) : Prop where
  unvisited : ∀ n c, IsDeclaredName l d n c → c ∉ l.frontEnd.trail d d.root
  unused : ∀ n c u, IsDeclaredName l d n c → ¬ IsUseOf l.frontEnd functions d c u

/-- Names that are not visited are not used. -/
theorem namesUnread_iff {l : Language} {functions : List FunctionInfo} {d : Document}
    (hd : d.root.ids.Nodup) : NamesUnread l functions d ↔
      ∀ n ∈ l.frontEnd.trail d d.root, l.walksThrough n.kind = true → ¬ HasName n := by
  rw [← names_unvisited_iff hd]
  constructor
  · exact fun h => h.unvisited
  · exact fun h => ⟨h, fun n c u hdeclared huse => h n c hdeclared huse.reference.1⟩

/-- **Which declared names are read.**  Each use is a read at a visited node; a declared name is
visited exactly if its declaration is visited and walked through.  So no declared name is read
exactly if no visited declaration with a name is walked through; and where parameters are in their
places that means that the text is not Java, or no type of annotations is visited. -/
theorem synthesize_namesUnread_iff (l : Language) (functions : List FunctionInfo) (d : Document)
    (hd : d.tree.ids.Nodup) :
    (∀ u ∈ (synthesize l.frontEnd functions d).nodesOf .useSite,
      ∃ m ∈ l.frontEnd.trail d d.root, IsUseOf l.frontEnd functions d m u ∧
        l.frontEnd.flowStep d m = .reference u.label) ∧
    (∀ n c, IsDeclaredName l d n c → (c ∈ l.frontEnd.trail d d.root ↔
      n ∈ l.frontEnd.trail d d.root ∧ l.walksThrough n.kind = true ∧ c.isNamed = true)) ∧
    (NamesUnread l functions d ↔
      ∀ n ∈ l.frontEnd.trail d d.root, l.walksThrough n.kind = true → ¬ HasName n) ∧
    (ParametersInPlace d → (NamesUnread l functions d ↔
      (l = .java → ∀ n ∈ l.frontEnd.trail d d.root,
        n.kind = "annotation_type_declaration" → ¬ HasName n))) := by
  have hroot := hd.sublist d.root_ids_sublist
  refine ⟨fun u hu => ?_, fun n c h => mem_trail_name_iff hroot h, namesUnread_iff hroot, ?_⟩
  · obtain ⟨m, hm⟩ := exists_isUseOf hu
    obtain ⟨hvisited, hreference, -⟩ := hm.reference
    exact ⟨m, hvisited, hm, hreference⟩
  · intro hplace
    rw [namesUnread_iff hroot]
    cases l with
    | python => exact iff_of_true (fun n _ hwalks => by cases hwalks) (fun h => by cases h)
    | java =>
      constructor
      · intro h _ n hn hkind
        exact h n hn (by rw [hkind]; rfl)
      · intro h n hn hwalks
        simp only [Language.walksThrough, Bool.or_eq_true, beq_iff_eq] at hwalks
        rcases hwalks with hkind | hkind
        · exact h rfl n hn hkind
        · exact absurd hkind (Java.kind_ne_parameter_of_mem_trail hplace hn)

/-- No name of the class, its methods and their parameter is read. -/
theorem synthesize_namesUnread_iff_overloads :
    overloads.tree.ids.Nodup ∧ ParametersInPlace overloads ∧
      NamesUnread .java overloadedFunctions overloads := by
  have hd : overloads.tree.ids.Nodup := by decide +kernel
  have hinside : ∀ n ∈ overloads.root.inside, n.kind ≠ "annotation_type_declaration" ∧
      ∀ c ∈ n.children, (c.kind = "formal_parameter" → n.kind = "formal_parameters") ∧
        (c.kind = "formal_parameters" → c.tree.info.field = some "parameters" ∧
          n.kind ∈ ["method_declaration", "constructor_declaration", "record_declaration",
            "lambda_expression"]) := by decide +kernel
  have hplace : ParametersInPlace overloads := {
    root := by decide +kernel
    parameter := fun n c hn hc => ((hinside n (Node.mem_inside hn)).2 c hc).1
    list := fun n c hn hc => ((hinside n (Node.mem_inside hn)).2 c hc).2 }
  refine ⟨hd, hplace, ?_⟩
  refine ((synthesize_namesUnread_iff .java overloadedFunctions overloads hd).2.2.2 hplace).mpr ?_
  intro _ n hn hkind
  exact absurd hkind
    (hinside n (Node.mem_inside (isInside_of_mem_trail Java.isLawful hn))).1

/-- A field and a type of annotations of the same name. -/
def annotationName : Document where
  language := .java
  text := "class C \x7b int A; @interface A \x7b \x7d \x7d"
  tree := (Tree.ofRecords? [
    ⟨0, "program", 0, 0, 35, none⟩, ⟨1, "class_declaration", 0, 0, 35, none⟩,
    ⟨2, "class", 1, 0, 5, none⟩, ⟨2, "identifier", 0, 6, 7, "name"⟩,
    ⟨2, "class_body", 0, 8, 35, "body"⟩, ⟨3, "\x7b", 1, 8, 9, none⟩,
    ⟨3, "field_declaration", 0, 10, 16, none⟩, ⟨4, "integral_type", 0, 10, 13, "type"⟩,
    ⟨5, "int", 1, 10, 13, none⟩, ⟨4, "variable_declarator", 0, 14, 15, "declarator"⟩,
    ⟨5, "identifier", 0, 14, 15, "name"⟩, ⟨4, ";", 1, 15, 16, none⟩,
    ⟨3, "annotation_type_declaration", 0, 17, 33, none⟩, ⟨4, "@interface", 1, 17, 27, none⟩,
    ⟨4, "identifier", 0, 28, 29, "name"⟩, ⟨4, "annotation_type_body", 0, 30, 33, "body"⟩,
    ⟨5, "\x7b", 1, 30, 31, none⟩, ⟨5, "\x7d", 1, 32, 33, none⟩,
    ⟨3, "\x7d", 1, 34, 35, none⟩]).getD default

/-- The name of the type of annotations is visited, and its use is linked to the field. -/
theorem annotationName_read :
    ∃ n c, IsDeclaredName .java annotationName n c ∧ n.kind = "annotation_type_declaration" ∧
      c ∈ Java.frontEnd.trail annotationName annotationName.root ∧
      (synthesize Java.frontEnd [] annotationName).nodes =
        [⟨0, "field", .field, "A", some 1⟩, ⟨1, "use", .useSite, "A", some 1⟩] ∧
      (synthesize Java.frontEnd [] annotationName).edges = [⟨0, 1, some .defines⟩] ∧
      IsUseOf Java.frontEnd [] annotationName c ⟨1, "use", .useSite, "A", some 1⟩ ∧
      ¬ NamesUnread .java [] annotationName := by
  have hd : annotationName.root.ids.Nodup := by decide +kernel
  have hrun := Machine.eq_of_agenda_isEmpty Java.frontEnd annotationName 12 (by decide +kernel)
  have htrail : ((Machine.turn Java.frontEnd annotationName)^[12]
      { agenda := [.visit annotationName.root] }).visited =
        Java.frontEnd.trail annotationName annotationName.root := congrArg Machine.visited hrun
  have hevents : Java.frontEnd.evaluate annotationName annotationName.root =
      [.define ⟨"A", 1, .field⟩, .read "A" 1] :=
    (congrArg Machine.found hrun).symm.trans (by decide +kernel)
  have hgraph : (synthesize Java.frontEnd [] annotationName).nodes =
        [⟨0, "field", .field, "A", some 1⟩, ⟨1, "use", .useSite, "A", some 1⟩] ∧
      (synthesize Java.frontEnd [] annotationName).edges = [⟨0, 1, some .defines⟩] := by
    rw [synthesize, flow_eq_evaluate, hevents]
    decide +kernel
  -- the declaration is visited, and so is its name
  have hdeclaration : ∃ n ∈ Java.frontEnd.trail annotationName annotationName.root,
      n.kind = "annotation_type_declaration" ∧
        (n.field? "name").map (fun c => (c.kind, c.isNamed, c.id)) =
          some ("identifier", true, 14) := by
    rw [← htrail]
    decide +kernel
  obtain ⟨n, hn, hkind, hname⟩ := hdeclaration
  obtain ⟨c, hname, hc⟩ := Option.map_eq_some_iff.mp hname
  obtain ⟨hidentifier, hc⟩ := Prod.mk.inj hc
  obtain ⟨hnamed, hid⟩ := Prod.mk.inj hc
  have hwalks : Language.java.walksThrough n.kind = true := by rw [hkind]; rfl
  have hdeclared : IsDeclaredName .java annotationName n c :=
    ⟨isInside_of_mem_trail Java.isLawful hn, isDeclaration_of_walksThrough hwalks, hname,
      hidentifier⟩
  have hvisited : c ∈ Java.frontEnd.trail annotationName annotationName.root :=
    (mem_trail_name_iff hd hdeclared).mpr ⟨hn, hwalks, hnamed⟩
  -- no other visited node is a reference
  have honly : ∀ m ∈ Java.frontEnd.trail annotationName annotationName.root,
      (match Java.frontEnd.flowStep annotationName m with
        | .reference _ => m.id == 14
        | _ => true) = true := by
    rw [← htrail]
    decide +kernel
  have huse : IsUseOf Java.frontEnd [] annotationName c ⟨1, "use", .useSite, "A", some 1⟩ := by
    have hu : (⟨1, "use", .useSite, "A", some 1⟩ : Vertex) ∈
        (synthesize Java.frontEnd [] annotationName).nodesOf .useSite := by
      rw [nodesOf, hgraph.1]
      exact List.mem_singleton.mpr rfl
    obtain ⟨m, hm⟩ := exists_isUseOf hu
    obtain ⟨hmem, hreference, -⟩ := hm.reference
    have hmid := honly m hmem
    rw [hreference] at hmid
    have hsame := (isInside_of_mem_trail Java.isLawful hmem).eq_of_id_eq hd
      (isInside_of_mem_trail Java.isLawful hvisited) ((beq_iff_eq.mp hmid).trans hid.symm)
    exact hsame ▸ hm
  exact ⟨n, c, hdeclared, hkind, hvisited, hgraph.1, hgraph.2, huse,
    fun h => h.unvisited n c hdeclared hvisited⟩

end DataFlow

end CodeDiagram
