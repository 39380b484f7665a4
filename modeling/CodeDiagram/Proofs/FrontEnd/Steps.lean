/-
# Steps speak of parts

A front end says of a node which nodes evaluating it leads to.  For both languages these are
children of the node, and no child comes up twice, except that a value may be a target as well
(`FlowStep.IsApart`).  What a target leaves to be read is part of the target, and evaluating the
target visits it.  `FrontEnd.IsLawful` holds these laws; `Java.isLawful` and `Python.isLawful` prove
them.
-/
import CodeDiagram.FrontEnd.Registry
import CodeDiagram.Proofs.DataFlow.Evaluation

namespace CodeDiagram

open Syntax

/-! ## 1. The laws -/

/-- No node comes up twice in a step, except as a value and a target. -/
def FlowStep.IsApart : FlowStep → Prop
  | .bind values targets _ next =>
    (values ++ next).Nodup ∧ (targets ++ next).Nodup
  | .function _ _ body => body.Nodup
  | .reference _ => True
  | .walk children => children.Nodup
  | .skip => True

/-- What the steps of a front end keep to. -/
structure FrontEnd.IsLawful (fe : FrontEnd) : Prop where
  below : ∀ {d n m}, m ∈ (fe.flowStep d n).mentions → m ∈ n.children
  apart : ∀ {d} {n : Node}, n.children.Nodup → (fe.flowStep d n).IsApart
  reads_ids : ∀ d t binding, ((fe.bindTargets d t binding).reads.flatMap Node.ids).Sublist t.ids
  reads_visited : ∀ {d t binding m}, m ∈ (fe.bindTargets d t binding).reads → m ∈ fe.trail d t

/-- What a node leads to is mentioned by its step, or it is left to be read by a target that is. -/
theorem mentions_or_reads_of_mem_ahead {fe : FrontEnd} {d : Document} {n m : Node}
    (h : m ∈ fe.ahead d n) : m ∈ (fe.flowStep d n).mentions ∨
      ∃ t ∈ (fe.flowStep d n).mentions, ∃ binding, m ∈ (fe.bindTargets d t binding).reads := by
  unfold FrontEnd.ahead at h
  cases hstep : fe.flowStep d n with
  | bind values targets binding next =>
    rw [hstep] at h
    simp only [FlowStep.mentions, List.mem_append] at h ⊢
    rcases h with (h | h) | h
    · exact Or.inl (Or.inl (Or.inl h))
    · obtain ⟨t, ht, hm⟩ := List.mem_flatMap.mp h
      exact Or.inr ⟨t, Or.inl (Or.inr ht), binding, hm⟩
    · exact Or.inl (Or.inr h)
  | function name parameters body =>
    rw [hstep] at h
    exact Or.inl h
  | reference name =>
    rw [hstep] at h
    cases h
  | walk children =>
    rw [hstep] at h
    exact Or.inl h
  | skip =>
    rw [hstep] at h
    cases h

/-! ## 2. Parts of a node -/

namespace Syntax.Node

variable {n m : Node}

theorem nodup_namedChildren (h : n.children.Nodup) : n.namedChildren.Nodup := h.filter _

theorem nodup_fields (h : n.children.Nodup) (name : String) : (n.fields name).Nodup := h.filter _

theorem nodup_field? (name : String) : (n.field? name).toList.Nodup := by
  cases n.field? name with
  | none => exact List.nodup_nil
  | some m => exact List.nodup_singleton m

theorem field_of_field? {name : String} (h : n.field? name = some m) :
    m.tree.info.field = some name := by
  have hm := List.find?_some h
  exact beq_iff_eq.mp hm

/-- A child fills one field. -/
theorem disjoint_field? {a b : String} (hab : a ≠ b) :
    List.Disjoint (n.field? a).toList (n.field? b).toList := by
  intro m ha hb
  have ha := field_of_field? (Option.mem_toList.mp ha)
  have hb := field_of_field? (Option.mem_toList.mp hb)
  exact hab (Option.some.inj (ha.symm.trans hb))

/-- Two fields are two children. -/
theorem nodup_field?_append {a b : String} (hab : a ≠ b) :
    ((n.field? a).toList ++ (n.field? b).toList).Nodup :=
  (nodup_field? a).append (nodup_field? b) (disjoint_field? hab)

/-- Three fields are three children. -/
theorem nodup_field?_append_append {a b c : String} (hab : a ≠ b) (hac : a ≠ c) (hbc : b ≠ c) :
    ((n.field? a).toList ++ ((n.field? b).toList ++ (n.field? c).toList)).Nodup := by
  refine (nodup_field? a).append (nodup_field?_append hbc) ?_
  rw [List.disjoint_append_right]
  exact ⟨disjoint_field? hab, disjoint_field? hac⟩

end Syntax.Node

theorem isApart_functionStep (name : Except ExtractionFault String) (parameters : List String)
    (n : Node) (field : String) : (functionStep name parameters (n.field? field)).IsApart := by
  unfold functionStep
  split
  · exact Node.nodup_field? field
  · exact trivial

theorem isApart_referenceStep (text : Except ExtractionFault String) :
    (referenceStep text).IsApart := by
  unfold referenceStep
  split <;> exact trivial

/-! ## 3. Java -/

namespace Java

theorem isApart_flowStep {d : Document} {n : Node} (h : n.children.Nodup) :
    (flowStep d n).IsApart := by
  have hone : ∀ name, (n.field? name).toList.Nodup := Node.nodup_field?
  have hnil : ∀ name, ((n.field? name).toList ++ []).Nodup := by simpa using hone
  unfold flowStep
  dsimp only
  split <;> first
    | exact isApart_functionStep _ _ n _
    | exact isApart_referenceStep _
    | exact hone _
    | exact Node.nodup_field?_append (by decide)
    | exact Node.nodup_namedChildren h
    | exact trivial
    | exact ⟨hnil _, hnil _⟩
    | exact ⟨Node.nodup_field?_append (by decide), Node.nodup_field?_append (by decide)⟩
    | exact ⟨List.nodup_nil, hnil _⟩
    | skip
  · refine ⟨?_, hnil _⟩
    rw [List.append_nil]
    split
    · exact Node.nodup_field?_append (by decide)
    · exact hone _
  · split
    · exact isApart_referenceStep _
    · exact hone _

theorem isLawful : frontEnd.IsLawful where
  below := mem_children_of_mem_flowStep
  apart := isApart_flowStep
  reads_ids d t binding := by
    rw [frontEnd_bindTargets, bindTargets]
    split
    · simp
    · split
      · simp
      · simp
  reads_visited {d t binding m} h := by
    rw [frontEnd_bindTargets] at h
    rw [(eq_of_mem_reads h).1]
    exact frontEnd.mem_trail_self d t

end Java

/-! ## 4. Python -/

namespace Python

/-- What is before the first element of a kind and what is after the next one are parts of a
list. -/
theorem around_sublist {α : Type} (p q : α → Bool) (l : List α) :
    ((l.takeWhile p).filter q ++ (((l.dropWhile p).drop 1).filter q).drop 1).Sublist l := by
  have hafter : ((((l.dropWhile p).drop 1).filter q).drop 1).Sublist (l.dropWhile p) :=
    (List.drop_sublist 1 _).trans (List.filter_sublist.trans (List.drop_sublist 1 _))
  have hparts := (List.filter_sublist (p := q) (l := l.takeWhile p)).append hafter
  rwa [List.takeWhile_append_dropWhile] at hparts

/-- What stands before `as`, the name, and what comes after the name are different nodes. -/
theorem isApart_exceptStep {n : Node} (h : n.children.Nodup) : (exceptStep n).IsApart := by
  unfold exceptStep
  dsimp only
  split
  · constructor
    · exact h.sublist (around_sublist _ _ _)
    · rw [List.take_append_drop]
      exact h.sublist
        (List.filter_sublist.trans ((List.drop_sublist _ _).trans (List.dropWhile_sublist _)))
  · exact Node.nodup_namedChildren h

/-- The clauses of a comprehension are other nodes than its expression. -/
theorem isApart_comprehensionStep {n : Node} (h : n.children.Nodup) :
    (comprehensionStep n).IsApart := by
  unfold comprehensionStep
  split
  · rename_i body _
    refine ((Node.nodup_namedChildren h).filter _).append (List.nodup_singleton body) ?_
    intro m hm hbody
    rw [List.mem_singleton.mp hbody] at hm
    simpa using (List.mem_filter.mp hm).2
  · exact Node.nodup_namedChildren h

theorem isApart_flowStep {d : Document} {n : Node} (h : n.children.Nodup) :
    (flowStep d n).IsApart := by
  have hone : ∀ name, (n.field? name).toList.Nodup := Node.nodup_field?
  have hnil : ∀ name, ((n.field? name).toList ++ []).Nodup := by simpa using hone
  unfold flowStep
  dsimp only
  split <;> first
    | exact isApart_functionStep _ _ n _
    | exact isApart_referenceStep _
    | exact isApart_comprehensionStep h
    | exact isApart_exceptStep h
    | exact hone _
    | exact Node.nodup_field?_append (by decide)
    | exact Node.nodup_namedChildren h
    | exact trivial
    | exact ⟨hnil _, hnil _⟩
    | exact ⟨Node.nodup_field?_append_append (by decide) (by decide) (by decide),
        Node.nodup_field?_append_append (by decide) (by decide) (by decide)⟩
    | skip
  · refine ⟨?_, hnil _⟩
    rw [List.append_nil]
    exact Node.nodup_field?_append (by decide)
  · refine ⟨?_, hnil _⟩
    rw [List.append_nil]
    exact Node.nodup_fields h "right"
  · refine ⟨?_, hnil _⟩
    rw [List.append_nil]
    exact (Node.nodup_namedChildren h).sublist (List.take_sublist _ _)
  · split
    · exact isApart_referenceStep _
    · exact hone _

theorem frontier_eq (n : Node) :
    frontier n = if isContainer n.kind then n.namedChildren.flatMap frontier else [n] := by
  rw [frontier]
  split
  · exact flatMap_attach_val _ _
  · rfl

/-- What stands at the ends of the containers is part of the whole. -/
theorem ids_frontier (n : Node) : ((frontier n).flatMap Node.ids).Sublist n.ids := by
  induction n using frontier.induct with
  | case1 n hk ih =>
    rw [frontier_eq, if_pos hk, List.flatMap_assoc]
    exact (List.Sublist.flatMap_right _ ih).trans
      ((List.sublist_cons_self _ _).trans n.namedChildren_ids_sublist)
  | case2 n hk =>
    rw [frontier_eq, if_neg hk, List.flatMap_singleton]

/-- Evaluating a container is evaluating what is in it. -/
theorem flowStep_of_isContainer {d : Document} {n : Node} (h : isContainer n.kind = true) :
    flowStep d n = .walk n.namedChildren := by
  unfold flowStep
  dsimp only
  split <;> first
    | rfl
    | rename_i hkind
      rw [hkind] at h
      exact absurd h (by decide)

/-- Evaluating a container visits what stands at its ends. -/
theorem mem_trail_of_mem_frontier {d : Document} {n m : Node} (h : m ∈ frontier n) :
    m ∈ frontEnd.trail d n := by
  induction n using frontier.induct with
  | case1 n hk ih =>
    rw [frontier_eq, if_pos hk] at h
    obtain ⟨c, hc, hm⟩ := List.mem_flatMap.mp h
    have hahead : frontEnd.ahead d n = n.namedChildren := by
      rw [FrontEnd.ahead, frontEnd_flowStep, flowStep_of_isContainer hk]
    exact FrontEnd.mem_trail_of_mem_ahead (hahead ▸ hc) (ih c hc hm)
  | case2 n hk =>
    rw [frontier_eq, if_neg hk] at h
    exact List.mem_singleton.mp h ▸ frontEnd.mem_trail_self d n

/-- What a target leaves to be read stands at the ends of its containers. -/
theorem reads_sublist_frontier (d : Document) (t : Node) (binding : Binding) :
    (bindTargets d t binding).reads.Sublist (frontier t) := by
  have hone : ∀ e, (bindOne d binding e).reads.Sublist [e] := by
    intro e
    unfold bindOne
    split
    · exact List.nil_sublist _
    · split
      · exact List.nil_sublist _
      · exact List.Sublist.refl _
  simp only [bindTargets, List.flatMap_map]
  conv => rhs; rw [← List.flatMap_singleton' (frontier t)]
  exact List.Sublist.flatMap_right _ fun e _ => hone e

theorem isLawful : frontEnd.IsLawful where
  below := mem_children_of_mem_flowStep
  apart := isApart_flowStep
  reads_ids d t binding :=
    ((reads_sublist_frontier d t binding).flatMap Node.ids).trans (ids_frontier t)
  reads_visited {d t binding _} h :=
    mem_trail_of_mem_frontier ((reads_sublist_frontier d t binding).mem h)

end Python

/-- **The front ends keep to the laws.** -/
theorem Language.isLawful_frontEnd : ∀ l : Language, l.frontEnd.IsLawful
  | .python => Python.isLawful
  | .java => Java.isLawful

end CodeDiagram
