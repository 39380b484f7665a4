/-
# Which nodes read a target again

A step evaluates a target as a value only in an assignment that updates what it assigns to
(`Java.rereads_iff`, `Python.rereads_iff`).  If such a target is not made of names, as in
`a[0] += 1`, then it is evaluated before the assignment and once more when it is bound.
-/
import CodeDiagram.Proofs.DataFlow.Visits

namespace CodeDiagram

open Syntax

/-! ## 1. Steps that bind -/

theorem functionStep_ne_bind {name : Except ExtractionFault String} {parameters : List String}
    {body : Option Node} {values targets : List Node} {binding : Binding} {next : List Node} :
    functionStep name parameters body ≠ .bind values targets binding next := by
  unfold functionStep
  split <;> exact FlowStep.noConfusion

theorem referenceStep_ne_bind {text : Except ExtractionFault String} {values targets : List Node}
    {binding : Binding} {next : List Node} :
    referenceStep text ≠ .bind values targets binding next := by
  unfold referenceStep
  split <;> exact FlowStep.noConfusion

/-- No node fills two fields. -/
theorem Syntax.Node.not_mem_field?_of_mem_fields {n t : Node} {a b : String} (hab : a ≠ b)
    (ha : t ∈ n.fields a) : t ∉ (n.field? b).toList := by
  intro hb
  have ha := beq_iff_eq.mp (List.mem_filter.mp ha).2
  have hb := field_of_field? (Option.mem_toList.mp hb)
  exact hab (Option.some.inj (ha.symm.trans hb))

/-! ## 2. Java -/

namespace Java

variable {d : Document} {n t : Node}

/-- A target that is read and not bound: neither a name nor a field of `this`. -/
def IsForeign (t : Node) : Prop :=
  t.kind ≠ "identifier" ∧ ¬ (t.kind = "field_access" ∧ isThisAccess t = true)

/-- A compound assignment to such a target. -/
def Rereads (d : Document) (n : Node) : Prop :=
  n.kind = "assignment_expression" ∧ isCompound d n = true ∧
    ∃ t, n.field? "left" = some t ∧ IsForeign t

theorem reads_ne_nil_iff {binding : Binding} :
    (bindTargets d t binding).reads ≠ [] ↔ IsForeign t := by
  unfold bindTargets IsForeign
  split
  · rename_i h
    simp [beq_iff_eq.mp h]
  · rename_i h
    split
    · rename_i hthis
      simp only [Bool.and_eq_true, beq_iff_eq] at hthis
      simp [hthis]
    · rename_i hthis
      simp only [Bool.and_eq_true, beq_iff_eq] at h hthis
      simp [h, hthis]

theorem flowStep_assignment (h : n.kind = "assignment_expression") : flowStep d n =
    .bind (if isCompound d n then (n.field? "left").toList ++ (n.field? "right").toList
      else (n.field? "right").toList) (n.field? "left").toList .localName [] := by
  simp only [flowStep, h]

/-- A value that is a target too is what a compound assignment assigns to. -/
theorem shared_of_flowStep {values targets : List Node} {binding : Binding} {next : List Node}
    (h : flowStep d n = .bind values targets binding next) (hv : t ∈ values) (ht : t ∈ targets) :
    n.kind = "assignment_expression" ∧ isCompound d n = true ∧ n.field? "left" = some t := by
  unfold flowStep at h
  dsimp only at h
  split at h <;> first
    | exact absurd h functionStep_ne_bind
    | exact absurd h referenceStep_ne_bind
    | exact FlowStep.noConfusion h
    | skip
  · cases h
    exact absurd ht (Node.disjoint_field? (by decide) hv)
  · rename_i hkind
    cases h
    split at hv
    · rename_i hcompound
      exact ⟨hkind, hcompound, Option.mem_toList.mp ht⟩
    · exact absurd ht (Node.disjoint_field? (by decide) hv)
  · cases h
    exact absurd ht (Node.disjoint_field? (by decide) hv)
  · cases h
    cases hv
  · split at h
    · exact absurd h referenceStep_ne_bind
    · exact FlowStep.noConfusion h

/-- **Compound assignments to something that is not bound** read it again, and nothing else does. -/
theorem rereads_iff : frontEnd.Rereads d n ↔ Rereads d n := by
  constructor
  · rintro ⟨values, targets, binding, next, hstep, t, ht, hv, hreads⟩
    obtain ⟨hkind, hcompound, hleft⟩ := shared_of_flowStep hstep hv ht
    exact ⟨hkind, hcompound, t, hleft, reads_ne_nil_iff.mp hreads⟩
  · rintro ⟨hkind, hcompound, t, hleft, hforeign⟩
    have hstep := flowStep_assignment (d := d) hkind
    rw [if_pos hcompound, hleft] at hstep
    exact ⟨_, _, _, _, hstep, t, List.mem_singleton_self t, List.mem_cons_self,
      reads_ne_nil_iff.mpr hforeign⟩

end Java

/-! ## 3. Python -/

namespace Python

variable {d : Document} {n t : Node}

/-- A target that is read and not bound: neither a name nor an attribute of `self`. -/
def IsForeign (d : Document) (t : Node) : Prop :=
  t.kind ≠ "identifier" ∧ ¬ (t.kind = "attribute" ∧ isSelfAttribute d t = true)

/-- What an augmented assignment assigns to, or an alias that stands where the value should be. -/
def IsUpdated (n t : Node) : Prop :=
  n.kind = "augmented_assignment" ∧ n.field? "left" = some t ∨
    n.kind = "as_pattern" ∧ n.namedChildren.head? = some t ∧ n.field? "alias" = some t

/-- An update of something that is not made of targets that are bound. -/
def Rereads (d : Document) (n : Node) : Prop :=
  ∃ t, IsUpdated n t ∧ ∃ e ∈ frontier t, IsForeign d e

theorem reads_bindOne_ne_nil_iff {binding : Binding} :
    (bindOne d binding t).reads ≠ [] ↔ IsForeign d t := by
  unfold bindOne IsForeign
  split
  · rename_i h
    simp [beq_iff_eq.mp h]
  · rename_i h
    split
    · rename_i hself
      simp only [Bool.and_eq_true, beq_iff_eq] at hself
      simp [hself]
    · rename_i hself
      simp only [Bool.and_eq_true, beq_iff_eq] at h hself
      simp [h, hself]

theorem reads_ne_nil_iff {binding : Binding} :
    (bindTargets d t binding).reads ≠ [] ↔ ∃ e ∈ frontier t, IsForeign d e := by
  have hends : (bindTargets d t binding).reads =
      (frontier t).flatMap fun e => (bindOne d binding e).reads := List.flatMap_map _ _ _
  rw [hends, Ne, List.flatMap_eq_nil_iff]
  push Not
  exact exists_congr fun e => and_congr_right fun _ => reads_bindOne_ne_nil_iff

theorem flowStep_augmented (h : n.kind = "augmented_assignment") : flowStep d n =
    .bind ((n.field? "left").toList ++ (n.field? "right").toList) (n.field? "left").toList
      .localName [] := by
  simp only [flowStep, h]

theorem flowStep_alias (h : n.kind = "as_pattern") : flowStep d n =
    .bind (n.namedChildren.take 1) (n.field? "alias").toList .localName [] := by
  simp only [flowStep, h]

/-- What stands before `as` does not stand after it. -/
theorem not_shared_exceptStep {values targets : List Node} {binding : Binding} {next : List Node}
    (hn : n.children.Nodup) (h : exceptStep n = .bind values targets binding next)
    (hv : t ∈ values) : t ∉ targets := by
  unfold exceptStep at h
  dsimp only at h
  split at h
  · cases h
    rw [← List.takeWhile_append_dropWhile (p := fun c => !(c.kind == "as")) (l := n.children)] at hn
    have hdisjoint := (List.nodup_append'.mp hn).2.2
    exact fun ht => hdisjoint (List.mem_filter.mp hv).1
      (List.mem_of_mem_drop (List.mem_filter.mp (List.mem_of_mem_take ht)).1)
  · exact FlowStep.noConfusion h

theorem comprehensionStep_ne_bind {values targets : List Node} {binding : Binding}
    {next : List Node} : comprehensionStep n ≠ .bind values targets binding next := by
  unfold comprehensionStep
  split <;> exact FlowStep.noConfusion

/-- A value that is a target too is updated. -/
theorem shared_of_flowStep {values targets : List Node} {binding : Binding} {next : List Node}
    (hn : n.children.Nodup) (h : flowStep d n = .bind values targets binding next)
    (hv : t ∈ values) (ht : t ∈ targets) : IsUpdated n t := by
  unfold flowStep at h
  dsimp only at h
  split at h <;> first
    | exact absurd h functionStep_ne_bind
    | exact absurd h referenceStep_ne_bind
    | exact absurd h comprehensionStep_ne_bind
    | exact FlowStep.noConfusion h
    | exact absurd ht (not_shared_exceptStep hn h hv)
    | skip
  · cases h
    exact absurd ht (Node.disjoint_field? (by decide) hv)
  · rename_i hkind
    cases h
    exact Or.inl ⟨hkind, Option.mem_toList.mp ht⟩
  · cases h
    exact absurd ht (Node.disjoint_field? (by decide) hv)
  · cases h
    exact absurd ht (Node.not_mem_field?_of_mem_fields (by decide) hv)
  · rename_i hkind
    cases h
    rw [List.take_one] at hv
    exact Or.inr ⟨hkind, Option.mem_toList.mp hv, Option.mem_toList.mp ht⟩
  · cases h
    exact absurd ht (Node.disjoint_field? (by decide) hv)
  · split at h
    · exact absurd h referenceStep_ne_bind
    · exact FlowStep.noConfusion h

/-- **Updates of something that is not bound** read it again, and nothing else does. -/
theorem rereads_iff (hn : n.children.Nodup) : frontEnd.Rereads d n ↔ Rereads d n := by
  constructor
  · rintro ⟨values, targets, binding, next, hstep, t, ht, hv, hreads⟩
    exact ⟨t, shared_of_flowStep hn hstep hv ht, reads_ne_nil_iff.mp hreads⟩
  · rintro ⟨t, ⟨hkind, hleft⟩ | ⟨hkind, hhead, halias⟩, hforeign⟩
    · have hstep := flowStep_augmented (d := d) hkind
      rw [hleft] at hstep
      exact ⟨_, _, _, _, hstep, t, List.mem_singleton_self t, List.mem_cons_self,
        reads_ne_nil_iff.mpr hforeign⟩
    · have hstep := flowStep_alias (d := d) hkind
      rw [halias] at hstep
      refine ⟨_, _, _, _, hstep, t, List.mem_singleton_self t, ?_, reads_ne_nil_iff.mpr hforeign⟩
      rw [List.take_one, hhead]
      exact List.mem_singleton_self t

end Python

/-- A node of a language reads a target again. -/
def Language.Rereads : Language → Document → Node → Prop
  | .python => Python.Rereads
  | .java => Java.Rereads

theorem Language.rereads_iff {d : Document} {n : Node} (hn : n.children.Nodup) :
    ∀ l : Language, l.frontEnd.Rereads d n ↔ l.Rereads d n
  | .python => Python.rereads_iff hn
  | .java => Java.rereads_iff

end CodeDiagram
