/-
# Tables of distinct keys

Under keys that are told apart, pairs are put together to a table just as they stand
(`assignAll_pairs`), and so are sections with headers of one key (`ofSections_parts`).
-/
import CodeDiagram.Toml.Table
import Mathlib.Data.List.Nodup

namespace CodeDiagram.Toml.Entries

/-! ## 1. Pairs -/

/-- The keys of a table. -/
def keys (es : Entries) : List String := es.map (·.1)

theorem lookup_eq_none {es : Entries} {key : String} (h : key ∉ es.keys) :
    es.lookup key = none := by
  rw [List.lookup_eq_none_iff]
  intro p hp
  simp only [bne_iff_ne, ne_eq]
  rintro rfl
  exact h (List.mem_map_of_mem hp)

/-- A key that is not there is put behind the others. -/
theorem put_eq_append {es : Entries} {key : String} (h : key ∉ es.keys) (e : Entry) :
    es.put key e = es ++ [(key, e)] := by
  induction es with
  | nil => rfl
  | cons p es ih =>
    simp only [keys, List.map_cons, List.mem_cons, not_or] at h
    rw [put, if_neg (Ne.symm h.1), ih h.2, List.cons_append]

/-- The pair of an entry. -/
def pairOf (p : String × Entry) : Pair := ⟨[p.1], p.2⟩

/-- Pairs of distinct keys are put behind a table as they stand. -/
theorem assignAll_pairs {es more : Entries} (h : (keys (es ++ more)).Nodup) :
    assignAll es (more.map pairOf) = some (es ++ more) := by
  induction more generalizing es with
  | nil => simp [assignAll]
  | cons p more ih =>
    have apart : p.1 ∉ es.keys := by
      intro there
      rw [keys, List.map_append, List.map_cons] at h
      exact (List.disjoint_of_nodup_append h) there List.mem_cons_self
    have first : assignPair es (pairOf p) = some (es ++ [p]) := by
      simp [assignPair, pairOf, assign, lookup_eq_none apart, put_eq_append apart]
    have rest : assignAll (es ++ [p]) (more.map pairOf) = some (es ++ [p] ++ more) :=
      ih (by simpa using h)
    simp only [assignAll] at rest
    simp [assignAll, first, rest]

/-! ## 2. Sections -/

/-- A section with a header of one key. -/
def sectionOf (part : String × Entries) : Section := ⟨[part.1], false, part.2.map pairOf⟩

/-- The table that it opens. -/
def tableOf (part : String × Entries) : String × Entry := (part.1, .table .header part.2)

/-- A section under a key that is not there opens a table behind the others. -/
theorem openAt_sectionOf {es : Entries} {part : String × Entries} (apart : part.1 ∉ es.keys)
    (distinct : part.2.keys.Nodup) :
    openAt (sectionOf part) (sectionOf part).keys es = some (es ++ [tableOf part]) := by
  have pairs : assignAll [] (part.2.map pairOf) = some part.2 := assignAll_pairs distinct
  simp [sectionOf, openAt, lookup_eq_none apart, opened, pairs, put_eq_append apart, tableOf]

/-- Sections of distinct keys open their tables behind a table, one after the other. -/
theorem foldlM_openAt {parts : List (String × Entries)}
    (each : ∀ part ∈ parts, part.2.keys.Nodup) (es : Entries)
    (apart : (es.keys ++ parts.map (·.1)).Nodup) :
    (parts.map sectionOf).foldlM (fun es s => openAt s s.keys es) es =
      some (es ++ parts.map tableOf) := by
  induction parts generalizing es with
  | nil => simp
  | cons part parts ih =>
    have first : openAt (sectionOf part) (sectionOf part).keys es =
        some (es ++ [tableOf part]) := by
      refine openAt_sectionOf ?_ (each part (by simp))
      exact fun there => (List.disjoint_of_nodup_append apart) there (by simp)
    have rest := ih (fun q hq => each q (by simp [hq])) (es ++ [tableOf part])
      (by simpa [keys, tableOf] using apart)
    simp [first, rest]

/-- **Sections of distinct keys are put together as they stand.** -/
theorem ofSections_parts {parts : List (String × Entries)} (h : (parts.map (·.1)).Nodup)
    (each : ∀ part ∈ parts, part.2.keys.Nodup) :
    ofSections? [] (parts.map sectionOf) = some (parts.map tableOf) := by
  simpa [ofSections?, assignAll] using foldlM_openAt each [] h

end CodeDiagram.Toml.Entries
