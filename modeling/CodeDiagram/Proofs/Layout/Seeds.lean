/-
# What a seed is a digest of

A request is digested as one row of bytes: source, language and diagram with a zero between each
two.  A source may have zeros in it, and may end like the name of a language or a diagram, so the
row cannot be read from its start.  It is read from its end: no name has a zero in it, so the last
zero is the one before the diagram, and the last zero before that one is the one before the language
(`splitAtLastZero_eq_some_iff`).

What is read is the request, and nothing else is read (`readRequest_eq_some_iff`).  So two requests
have the same bytes only if they are the same, and share a seed only if their bytes, being others,
have digests that start alike (`requestBytes_isReadable`).
-/
import CodeDiagram.Layout.Seed
import CodeDiagram.Proofs.Text.Breaks
import Mathlib.Data.List.DropRight

namespace CodeDiagram

/-! ## 1. Bytes of a text -/

theorem toList_loop_eq (b : ByteArray) (i : Nat) (r : List UInt8) :
    ByteArray.toList.loop b i r = r.reverse ++ b.data.toList.drop i := by
  induction i, r using ByteArray.toList.loop.induct b with
  | case1 i r hlt ih =>
    have hi : i < b.data.toList.length := hlt
    have hget : b.get! i = b.data.toList[i] := by
      rw [Array.getElem_toList]
      exact getElem!_pos b.data i hlt
    rw [ByteArray.toList.loop, if_pos hlt, ih, List.drop_eq_getElem_cons hi, hget]
    simp
  | case2 i r hge =>
    have hlen : b.data.toList.length ≤ i := Nat.le_of_not_lt hge
    rw [ByteArray.toList.loop, if_neg hge, List.drop_eq_nil_of_le hlen, List.append_nil]

/-- The bytes of an array, one by one. -/
theorem toList_eq_data (b : ByteArray) : b.toList = b.data.toList := by
  rw [ByteArray.toList, toList_loop_eq, List.reverse_nil, List.nil_append, List.drop_zero]

theorem toList_toUTF8 (s : String) : s.toUTF8.toList = Text.bytes s.toList := by
  rw [toList_eq_data, Text.toList_toUTF8]

/-- The text that has some bytes, if there is one. -/
def readText (bytes : List UInt8) : Option String := String.fromUTF8? ⟨bytes.toArray⟩

/-- **What is read from bytes is the text that has them.** -/
theorem readText_eq_some_iff {bytes : List UInt8} {s : String} :
    readText bytes = some s ↔ bytes = s.toUTF8.toList := by
  rw [toList_eq_data, readText, String.fromUTF8?]
  constructor
  · intro h
    split at h
    · obtain rfl := Option.some.inj h
      rfl
    · cases h
  · rintro rfl
    exact dif_pos s.isValidUTF8

/-! ## 2. The last zero -/

/-- What stands before the last zero, and what stands behind it. -/
def splitAtLastZero : List UInt8 → Option (List UInt8 × List UInt8)
  | [] => none
  | b :: bytes =>
    match splitAtLastZero bytes with
    | some (front, back) => some (b :: front, back)
    | none => if b = 0 then some ([], bytes) else none

theorem splitAtLastZero_eq_none_iff {bytes : List UInt8} :
    splitAtLastZero bytes = none ↔ 0 ∉ bytes := by
  induction bytes with
  | nil => simp [splitAtLastZero]
  | cons b bytes ih =>
    rw [splitAtLastZero, List.mem_cons, not_or, ← ih]
    cases hrest : splitAtLastZero bytes with
    | some parts => simp
    | none => simp [eq_comm]

theorem splitAtLastZero_append {back : List UInt8} (h : 0 ∉ back) (front : List UInt8) :
    splitAtLastZero (front ++ 0 :: back) = some (front, back) := by
  induction front with
  | nil =>
    rw [List.nil_append, splitAtLastZero, splitAtLastZero_eq_none_iff.mpr h]
    rfl
  | cons b front ih => rw [List.cons_append, splitAtLastZero, ih]

theorem eq_append_of_splitAtLastZero {bytes front back : List UInt8}
    (h : splitAtLastZero bytes = some (front, back)) : bytes = front ++ 0 :: back ∧ 0 ∉ back := by
  induction bytes generalizing front with
  | nil => cases h
  | cons b bytes ih =>
    rw [splitAtLastZero] at h
    cases hrest : splitAtLastZero bytes with
    | some parts =>
      rw [hrest] at h
      obtain ⟨rfl, rfl⟩ := Prod.mk.inj (Option.some.inj h)
      obtain ⟨heq, hzero⟩ := ih hrest
      exact ⟨congrArg (b :: ·) heq, hzero⟩
    | none =>
      -- the first byte is the only zero
      simp only [hrest] at h
      split at h
      · rename_i hb
        obtain ⟨rfl, rfl⟩ := Prod.mk.inj (Option.some.inj h)
        exact ⟨by rw [hb, List.nil_append], splitAtLastZero_eq_none_iff.mp hrest⟩
      · cases h

/-- **Bytes are split at a zero** exactly if there is none behind it. -/
theorem splitAtLastZero_eq_some_iff {bytes front back : List UInt8} :
    splitAtLastZero bytes = some (front, back) ↔ bytes = front ++ 0 :: back ∧ 0 ∉ back := by
  constructor
  · exact eq_append_of_splitAtLastZero
  · rintro ⟨rfl, h⟩
    exact splitAtLastZero_append h front

/-! ## 3. Names -/

theorem zero_notMem_language (l : Language) : 0 ∉ l.name.toUTF8.toList := by
  rw [toList_toUTF8]
  cases l <;> decide

theorem zero_notMem_diagram (k : DiagramKind) : 0 ∉ k.name.toUTF8.toList := by
  rw [toList_toUTF8]
  cases k <;> decide

/-- What has a name of some bytes, among all that have names. -/
def named? {α : Type} (all : List α) (name : α → String) (bytes : List UInt8) : Option α :=
  all.find? fun a => Text.bytes (name a).toList == bytes

/-- **What is found by the bytes of a name** is what has the name, if that is so for each name. -/
theorem named?_eq_some_iff {α : Type} {all : List α} {name : α → String}
    (hall : ∀ a, named? all name (Text.bytes (name a).toList) = some a) {bytes : List UInt8}
    {a : α} : named? all name bytes = some a ↔ bytes = (name a).toUTF8.toList := by
  rw [toList_toUTF8]
  constructor
  · intro h
    have hname := List.find?_some (p := fun a => Text.bytes (name a).toList == bytes) h
    exact (eq_of_beq hname).symm
  · rintro rfl
    exact hall a

theorem language_named? {bytes : List UInt8} {l : Language} :
    named? Language.all Language.name bytes = some l ↔ bytes = l.name.toUTF8.toList :=
  named?_eq_some_iff fun l => by cases l <;> decide

theorem diagram_named? {bytes : List UInt8} {k : DiagramKind} :
    named? DiagramKind.all DiagramKind.name bytes = some k ↔ bytes = k.name.toUTF8.toList :=
  named?_eq_some_iff fun k => by cases k <;> decide

/-! ## 4. Requests -/

/-- The request that has some bytes, read from the end of the bytes. -/
def readRequest (bytes : List UInt8) : Option (String × Language × DiagramKind) := do
  let (front, diagramName) ← splitAtLastZero bytes
  let (sourceBytes, languageName) ← splitAtLastZero front
  let source ← readText sourceBytes
  let language ← named? Language.all Language.name languageName
  let diagram ← named? DiagramKind.all DiagramKind.name diagramName
  return (source, language, diagram)

/-- **What is read from bytes is the request that has them**, whatever its source is. -/
theorem readRequest_eq_some_iff {bytes : List UInt8} {source : String} {l : Language}
    {k : DiagramKind} :
    readRequest bytes = some (source, l, k) ↔ bytes = requestBytes source l k := by
  rw [requestBytes]
  constructor
  · intro h
    obtain ⟨⟨front, diagramName⟩, hfront, h⟩ := Option.bind_eq_some_iff.mp h
    obtain ⟨⟨sourceBytes, languageName⟩, hsource, h⟩ := Option.bind_eq_some_iff.mp h
    obtain ⟨s, hs, h⟩ := Option.bind_eq_some_iff.mp h
    obtain ⟨l', hl, h⟩ := Option.bind_eq_some_iff.mp h
    obtain ⟨k', hk, h⟩ := Option.bind_eq_some_iff.mp h
    cases h
    rw [(splitAtLastZero_eq_some_iff.mp hfront).1, (splitAtLastZero_eq_some_iff.mp hsource).1,
      readText_eq_some_iff.mp hs, language_named?.mp hl, diagram_named?.mp hk]
  · rintro rfl
    have hfront := splitAtLastZero_append (zero_notMem_diagram k)
      (source.toUTF8.toList ++ 0 :: l.name.toUTF8.toList)
    have hsource := splitAtLastZero_append (zero_notMem_language l) source.toUTF8.toList
    simp only [readRequest, hfront, hsource, readText_eq_some_iff.mpr rfl, language_named?.mpr rfl,
      diagram_named?.mpr rfl, Option.bind_eq_bind, Option.bind_some, Option.pure_def]

/-! ## 5. Seeds -/

/-- Different bytes whose digests start alike. -/
def Collides (a b : List UInt8) : Prop :=
  a ≠ b ∧ (Digest.digest a).toSeed = (Digest.digest b).toSeed

/-- **The bytes of a request tell the request**: it is read from them, so different requests have
different bytes, and share a seed exactly if the digests of these start alike. -/
theorem requestBytes_isReadable :
    (∀ bytes source l k,
      readRequest bytes = some (source, l, k) ↔ bytes = requestBytes source l k) ∧
    (∀ source l k source' l' k', requestBytes source l k = requestBytes source' l' k' ↔
      (source, l, k) = (source', l', k')) ∧
    ∀ source l k source' l' k', layoutSeed source l k = layoutSeed source' l' k' ↔
      (source, l, k) = (source', l', k') ∨
        Collides (requestBytes source l k) (requestBytes source' l' k') := by
  have hbytes : ∀ source l k source' l' k', requestBytes source l k = requestBytes source' l' k' ↔
      (source, l, k) = (source', l', k') := by
    intro source l k source' l' k'
    constructor
    · intro h
      have hread := readRequest_eq_some_iff.mpr h
      rw [readRequest_eq_some_iff.mpr rfl] at hread
      exact Option.some.inj hread
    · intro h
      cases h
      rfl
  refine ⟨fun bytes source l k => readRequest_eq_some_iff, hbytes, ?_⟩
  intro source l k source' l' k'
  constructor
  · intro h
    by_cases heq : requestBytes source l k = requestBytes source' l' k'
    · exact .inl ((hbytes ..).mp heq)
    · exact .inr ⟨heq, h⟩
  · rintro (h | ⟨-, h⟩)
    · cases h
      rfl
    · exact h

end CodeDiagram
