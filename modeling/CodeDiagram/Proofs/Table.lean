/-
# Tables

A table is a list of keys with values, and a look-up finds the first entry of a key.  A hash table
that is made of such a list, or has the same look-ups, has the entries of the list if no key is in
it twice.
-/
import Mathlib.Data.List.Forall2
import Mathlib.Data.List.Nodup
import Std.Data.HashMap.Lemmas

namespace CodeDiagram

variable {α β : Type}

/-- Keys are paired as long as there are values. -/
theorem map_fst_zip_eq_take (keys : List α) (values : List β) :
    (keys.zip values).map (·.1) = keys.take values.length := by
  induction keys generalizing values with
  | nil => simp
  | cons key keys ih =>
    cases values with
    | nil => rfl
    | cons value values =>
      rw [List.zip_cons_cons, List.map_cons, ih, List.length_cons, List.take_succ_cons]

/-- Keys are paired alike with values that correspond. -/
theorem zip_forall₂ {γ : Type} {r : β → γ → Prop} {l : List β} {m : List γ}
    (h : List.Forall₂ r l m) (keys : List α) :
    List.Forall₂ (fun p q => p.1 = q.1 ∧ r p.2 q.2) (keys.zip l) (keys.zip m) := by
  induction h generalizing keys with
  | nil =>
    rw [List.zip_nil_right, List.zip_nil_right]
    exact .nil
  | cons hab _ ih =>
    cases keys with
    | nil => exact .nil
    | cons key keys => exact .cons ⟨rfl, hab⟩ (ih keys)

/-- Look-ups in tables that correspond find values that correspond. -/
theorem lookup_forall₂ [BEq α] {γ : Type} {r : β → γ → Prop} {l : List (α × β)} {m : List (α × γ)}
    (h : List.Forall₂ (fun p q => p.1 = q.1 ∧ r p.2 q.2) l m) (key : α) :
    Option.Rel r (l.lookup key) (m.lookup key) := by
  induction h with
  | nil => exact .none
  | @cons p q _ _ hpq _ ih =>
    rw [List.lookup_cons, List.lookup_cons, hpq.1]
    cases key == q.1 with
    | true => exact .some hpq.2
    | false => exact ih

variable [BEq α] [LawfulBEq α]

/-- In a table whose keys are different a look-up finds every entry. -/
theorem lookup_eq_some_iff_mem {l : List (α × β)} (h : (l.map (·.1)).Nodup) {key : α} {value : β} :
    l.lookup key = some value ↔ (key, value) ∈ l := by
  induction l with
  | nil => simp
  | cons x l ih =>
    obtain ⟨hx, hl⟩ := List.nodup_cons.mp h
    rw [List.lookup_cons, List.mem_cons]
    by_cases hkey : key = x.1
    · subst hkey
      have hout : (x.1, value) ∉ l := fun hm => hx (List.mem_map.mpr ⟨_, hm, rfl⟩)
      simp [hout, Prod.ext_iff, eq_comm]
    · have hne : (key == x.1) = false := by simpa using hkey
      simp [hne, ih hl, Prod.ext_iff, hkey]

/-- A look-up finds something exactly for the keys of the table. -/
theorem lookup_isSome_iff_mem {l : List (α × β)} {key : α} :
    (l.lookup key).isSome = true ↔ key ∈ l.map (·.1) := by
  rw [List.lookup_isSome_iff, List.mem_map]
  constructor
  · rintro ⟨x, hx, hkey⟩
    exact ⟨x, hx, (beq_iff_eq.mp hkey).symm⟩
  · rintro ⟨x, hx, rfl⟩
    exact ⟨x, hx, beq_self_eq_true _⟩

/-- An entry at the end counts like one in front, if its key is new. -/
theorem lookup_concat_of_eq_none {l : List (α × β)} {key : α} (h : l.lookup key = none) (value : β)
    (other : α) : (l ++ [(key, value)]).lookup other = ((key, value) :: l).lookup other := by
  rw [List.lookup_append, List.lookup_cons]
  by_cases hother : other = key
  · simp [hother, h]
  · have hne : (other == key) = false := by simpa using hother
    simp [List.lookup_cons, hne]

/-- An entry at the end does not count, if its key is not new. -/
theorem lookup_concat_of_eq_some {l : List (α × β)} {key : α} {first : β}
    (h : l.lookup key = some first) (value : β) (other : α) :
    (l ++ [(key, value)]).lookup other = l.lookup other := by
  rw [List.lookup_append]
  by_cases hother : other = key
  · simp [hother, h]
  · have hne : (other == key) = false := by simpa using hother
    simp [List.lookup_cons, hne]

/-- A look-up in a table that is made of keys. -/
theorem lookup_map_self (f : α → β) (keys : List α) (key : α) :
    (keys.map fun k => (k, f k)).lookup key = if key ∈ keys then some (f key) else none := by
  induction keys with
  | nil => rfl
  | cons k keys ih =>
    rw [List.map_cons, List.lookup_cons, ih]
    by_cases hkey : key = k
    · simp [hkey]
    · have hne : (key == k) = false := by simpa using hkey
      simp [hne, hkey]

/-! ## Hash tables -/

variable [Hashable α]

/-- A hash table of a list finds what a look-up finds. -/
theorem getElem?_ofList {l : List (α × β)} (h : (l.map (·.1)).Nodup) (key : α) :
    (Std.HashMap.ofList l)[key]? = l.lookup key := by
  cases hkey : l.lookup key with
  | none =>
    refine Std.HashMap.getElem?_ofList_of_contains_eq_false ?_
    rw [← Bool.not_eq_true, List.contains_iff_mem, ← lookup_isSome_iff_mem, hkey]
    exact Bool.false_ne_true
  | some value =>
    refine Std.HashMap.getElem?_ofList_of_mem (beq_self_eq_true _) ?_
      ((lookup_eq_some_iff_mem h).mp hkey)
    exact (List.pairwise_map.mp h).imp fun hab => beq_eq_false_iff_ne.mpr hab

/-- A hash table has the entries of a list that has the same look-ups. -/
theorem toList_perm {table : Std.HashMap α β} {l : List (α × β)} (hl : (l.map (·.1)).Nodup)
    (h : ∀ key, table[key]? = l.lookup key) : table.toList.Perm l := by
  have hkeys := Std.HashMap.nodup_keys (m := table)
  rw [← Std.HashMap.map_fst_toList_eq_keys] at hkeys
  refine (List.perm_ext_iff_of_nodup hkeys.of_map (List.Nodup.of_map _ hl)).mpr fun x => ?_
  rw [Std.HashMap.mem_toList_iff_getElem?_eq_some, h, lookup_eq_some_iff_mem hl]

/-- A hash table into which values are gathered by key has what the values of each key give. -/
theorem getD_foldl_insert {γ : Type} (keyOf : γ → α) (gather : β → γ → β) (none : β) (l : List γ)
    (table : Std.HashMap α β) (key : α) :
    (l.foldl (fun t x => t.insert (keyOf x) (gather (t.getD (keyOf x) none) x)) table).getD key
      none = (l.filter (keyOf · == key)).foldl gather (table.getD key none) := by
  induction l generalizing table with
  | nil => rfl
  | cons x l ih =>
    rw [List.foldl_cons, ih, Std.HashMap.getD_insert]
    by_cases hkey : keyOf x = key
    · simp [hkey]
    · simp [hkey]

/-- It has the keys of the table before and those of the values. -/
theorem mem_foldl_insert {γ : Type} (keyOf : γ → α) (gather : β → γ → β) (none : β) (l : List γ)
    (table : Std.HashMap α β) (key : α) :
    key ∈ l.foldl (fun t x => t.insert (keyOf x) (gather (t.getD (keyOf x) none) x)) table ↔
      key ∈ table ∨ ∃ x ∈ l, keyOf x = key := by
  induction l generalizing table with
  | nil => simp
  | cons x l ih =>
    rw [List.foldl_cons, ih, Std.HashMap.mem_insert, List.exists_mem_cons_iff, beq_iff_eq]
    tauto

end CodeDiagram
