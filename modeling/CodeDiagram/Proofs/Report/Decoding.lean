/-
# Metadata that were written are read

Metadata are read back from their JSON value and from both of its texts, if their numbers have the
width that a reader allows (`Metadata.Fits`); none are ever read whose numbers do not
(`Metadata.fits_of_ofJson?`), so the condition is exact (`Metadata.ofText?_toJson_iff`).

What is left out where it is absent or empty comes back as absent or empty: each record is looked at
once for every way its members can be there.
-/
import CodeDiagram.Proofs.Json.Texts
import CodeDiagram.Report.Decoding
import CodeDiagram.Report.Encoding

namespace CodeDiagram

open Json

/-! ## 1. Parts of records -/

section Parts

variable {α : Type} {read : Json → Option α} {write : α → Json} {p : α → Prop}

/-- A whole number is read if it is below the bound. -/
theorem asNat?_nat {n bound : Nat} (h : n < bound) : asNat? bound (nat n) = some n := if_pos h

/-- A number that is read is below the bound. -/
theorem lt_of_asNat? {v : Json} {n bound : Nat} (h : asNat? bound v = some n) : n < bound := by
  unfold asNat? at h
  split at h
  · split at h
    · next hlt =>
      cases h
      exact hlt
    · cases h
  · cases h

/-- A list is read if all of its items are. -/
theorem asList?_map {l : List α} (h : ∀ a ∈ l, read (write a) = some a) :
    asList? read (.arr (l.map write)) = some l := by
  rw [asList?]
  induction l with
  | nil => rfl
  | cons a l ih =>
    rw [List.forall_mem_cons] at h
    rw [List.map_cons, List.mapM_cons, h.1, ih h.2]
    rfl

/-- A list of strings is read. -/
theorem asList?_stringsToJson (ss : List String) :
    asList? asString? (stringsToJson ss) = some ss := asList?_map fun _ _ => rfl

/-- What holds of everything that is read holds of all items. -/
theorem forall_mem_of_asList? (hp : ∀ {v a}, read v = some a → p a) {v : Json} {l : List α}
    (h : asList? read v = some l) : ∀ a ∈ l, p a := by
  cases v with
  | arr items =>
    rw [asList?] at h
    induction items generalizing l with
    | nil =>
      cases h
      exact List.forall_mem_nil p
    | cons v items ih =>
      rw [List.mapM_cons] at h
      obtain ⟨a, ha, h⟩ := Option.bind_eq_some_iff.mp h
      obtain ⟨l, hl, h⟩ := Option.bind_eq_some_iff.mp h
      cases h
      exact List.forall_mem_cons.mpr ⟨hp ha, ih hl⟩
  | _ => cases h

/-- What holds of everything that is read holds of a field. -/
theorem of_required (hp : ∀ {v a}, read v = some a → p a) {r : Record} {place : Nat}
    {key : String} {a : α} (h : r.required place key read = some a) : p a := by
  obtain ⟨v, -, ha⟩ := Option.bind_eq_some_iff.mp h
  exact hp ha

end Parts

/-! ## 2. Names -/

/-- A relation is found by its name. -/
theorem Relation.ofName?_name (r : Relation) : ofName? r.name = some r := by
  cases r <;> decide

/-- What a name is bound as is found by its name. -/
theorem Binding.ofName?_name (b : Binding) : ofName? b.name = some b := by
  cases b <;> decide

/-! ## 3. Records -/

theorem FunctionInfo.ofJson?_toJson {f : FunctionInfo} (h : f.line < lineBound) :
    ofJson? f.toJson = some f := by
  obtain ⟨name, line, parameters, returnType, modifiers⟩ := f
  have hline : asLine? (nat line) = some line := asNat?_nat h
  cases returnType <;> cases modifiers <;>
    simp [ofJson?, toJson, record?, Record.required, Record.optional, Record.defaulted,
      Record.find?, get?, member?, asString?, asOption?, hline, asList?_stringsToJson]

theorem Supertype.ofJson?_toJson (s : Supertype) : ofJson? s.toJson = some s := by
  simp [ofJson?, toJson, record?, Record.required, Record.find?, get?, asString?, asWord?,
    Relation.ofName?_name]

theorem ClassInfo.ofJson?_toJson {c : ClassInfo} (h : c.line < lineBound) :
    ofJson? c.toJson = some c := by
  have hline : asLine? (nat c.line) = some c.line := asNat?_nat h
  have hsupertypes := asList?_map (l := c.supertypes) fun s _ => s.ofJson?_toJson
  simp [ofJson?, toJson, record?, Record.required, Record.find?, get?, asString?, hline,
    hsupertypes]

theorem VariableInfo.ofJson?_toJson {v : VariableInfo} (h : v.line < lineBound) :
    ofJson? v.toJson = some v := by
  have hline : asLine? (nat v.line) = some v.line := asNat?_nat h
  simp [ofJson?, toJson, record?, Record.required, Record.find?, get?, asString?, asWord?, hline,
    Binding.ofName?_name]

theorem ImportFlags.ofJson?_toJson (f : ImportFlags) : ofJson? f.toJson = some f := by
  simp [ofJson?, toJson, record?, Record.required, Record.find?, get?, asBool?]

theorem ImportInfo.ofJson?_toJson {i : ImportInfo} (h : i.line < lineBound) :
    ofJson? i.toJson = some i := by
  obtain ⟨path, renamedTo, line, flags⟩ := i
  have hline : asLine? (nat line) = some line := asNat?_nat h
  cases renamedTo <;>
    simp [ofJson?, toJson, record?, Record.required, Record.optional, Record.find?, get?, member?,
      asString?, asOption?, hline, ImportFlags.ofJson?_toJson]

/-- The numbers of metadata have the width that a reader allows: thirty-two bits for lines, and
sixty-four for the number of nodes. -/
structure Metadata.Fits (m : Metadata) : Prop where
  functions : ∀ f ∈ m.functions, f.line < lineBound
  classes : ∀ c ∈ m.classes, c.line < lineBound
  bindings : ∀ v ∈ m.bindings, v.line < lineBound
  imports : ∀ i ∈ m.imports, i.line < lineBound
  totalNodes : m.totalNodes < Number.countBound

/-- **Metadata that fit are read from their value.** -/
theorem Metadata.ofJson?_toJson {m : Metadata} (h : m.Fits) : ofJson? m.toJson = some m := by
  have hfunctions := asList?_map fun f hf => FunctionInfo.ofJson?_toJson (h.functions f hf)
  have hclasses := asList?_map fun c hc => ClassInfo.ofJson?_toJson (h.classes c hc)
  have hbindings := asList?_map fun v hv => VariableInfo.ofJson?_toJson (h.bindings v hv)
  have himports := asList?_map fun i hi => ImportInfo.ofJson?_toJson (h.imports i hi)
  have hnodes := asNat?_nat h.totalNodes
  cases herror : m.parseError <;>
    simp [ofJson?, toJson, record?, Record.required, Record.optional, Record.find?, get?, member?,
      asString?, asOption?, asBool?, herror, hfunctions, hclasses, hbindings, himports, hnodes]
  all_goals rw [← herror]

/-! ## 4. What is read fits -/

theorem FunctionInfo.line_lt_of_ofJson? {v : Json} {f : FunctionInfo} (h : ofJson? v = some f) :
    f.line < lineBound := by
  simp only [ofJson?, Option.bind_eq_bind, Option.bind_eq_some_iff] at h
  obtain ⟨_, -, _, -, line, hline, _, -, _, -, _, -, h⟩ := h
  cases h
  exact of_required lt_of_asNat? hline

theorem ClassInfo.line_lt_of_ofJson? {v : Json} {c : ClassInfo} (h : ofJson? v = some c) :
    c.line < lineBound := by
  simp only [ofJson?, Option.bind_eq_bind, Option.bind_eq_some_iff] at h
  obtain ⟨_, -, _, -, line, hline, _, -, h⟩ := h
  cases h
  exact of_required lt_of_asNat? hline

theorem VariableInfo.line_lt_of_ofJson? {v : Json} {x : VariableInfo} (h : ofJson? v = some x) :
    x.line < lineBound := by
  simp only [ofJson?, Option.bind_eq_bind, Option.bind_eq_some_iff] at h
  obtain ⟨_, -, _, -, line, hline, _, -, h⟩ := h
  cases h
  exact of_required lt_of_asNat? hline

theorem ImportInfo.line_lt_of_ofJson? {v : Json} {i : ImportInfo} (h : ofJson? v = some i) :
    i.line < lineBound := by
  simp only [ofJson?, Option.bind_eq_bind, Option.bind_eq_some_iff] at h
  obtain ⟨_, -, _, -, _, -, line, hline, _, -, h⟩ := h
  cases h
  exact of_required lt_of_asNat? hline

/-- **Metadata that are read fit.** -/
theorem Metadata.fits_of_ofJson? {v : Json} {m : Metadata} (h : ofJson? v = some m) : m.Fits := by
  simp only [ofJson?, Option.bind_eq_bind, Option.bind_eq_some_iff] at h
  obtain ⟨_, -, _, hfunctions, _, hclasses, _, hbindings, _, himports, _, -, _, hnodes, _, -, h⟩ :=
    h
  cases h
  exact {
    functions := of_required (forall_mem_of_asList? FunctionInfo.line_lt_of_ofJson?) hfunctions
    classes := of_required (forall_mem_of_asList? ClassInfo.line_lt_of_ofJson?) hclasses
    bindings := of_required (forall_mem_of_asList? VariableInfo.line_lt_of_ofJson?) hbindings
    imports := of_required (forall_mem_of_asList? ImportInfo.line_lt_of_ofJson?) himports
    totalNodes := of_required lt_of_asNat? hnodes }

/-! ## 5. Texts of metadata -/

/-- Items are exact if each of them is. -/
theorem areExact_map {α : Type} {write : α → Json} {l : List α}
    (h : ∀ a ∈ l, (write a).isExact = true) : areExact (l.map write) = true := by
  induction l with
  | nil => rfl
  | cons a l ih =>
    rw [List.forall_mem_cons] at h
    rw [List.map_cons, areExact, h.1, ih h.2]
    rfl

/-- A list of strings is exact. -/
theorem isExact_stringsToJson (ss : List String) : (stringsToJson ss).isExact = true := by
  rw [stringsToJson, isExact]
  exact areExact_map fun _ _ => rfl

/-- A count is exact if it has sixty-four bits. -/
theorem isExact_nat {n : Nat} (h : n < Number.countBound) : (nat n).isExact = true := by
  have hsign : ¬ (n : Int) < 0 := Int.not_lt.mpr (Int.natCast_nonneg n)
  rw [nat, isExact, isInteger, decide_eq_false hsign]
  exact decide_eq_true h

/-- A line has fewer bits. -/
theorem isExact_line {line : Nat} (h : line < lineBound) : (nat line).isExact = true :=
  isExact_nat (Nat.lt_trans h (by decide))

theorem FunctionInfo.isExact_toJson {f : FunctionInfo} (h : f.line < lineBound) :
    f.toJson.isExact = true := by
  obtain ⟨name, line, parameters, returnType, modifiers⟩ := f
  have hline : (nat line).isExact = true := isExact_line h
  cases returnType <;> cases modifiers <;>
    simp [toJson, isExact, haveExact, member?, hline, isExact_stringsToJson]

theorem ClassInfo.isExact_toJson {c : ClassInfo} (h : c.line < lineBound) :
    c.toJson.isExact = true := by
  have hsupertypes : areExact (c.supertypes.map (·.toJson)) = true := areExact_map fun _ _ => rfl
  simp [toJson, isExact, haveExact, isExact_line h, hsupertypes]

theorem VariableInfo.isExact_toJson {v : VariableInfo} (h : v.line < lineBound) :
    v.toJson.isExact = true := by
  simp [toJson, isExact, haveExact, isExact_line h]

theorem ImportInfo.isExact_toJson {i : ImportInfo} (h : i.line < lineBound) :
    i.toJson.isExact = true := by
  obtain ⟨path, renamedTo, line, flags⟩ := i
  have hline : (nat line).isExact = true := isExact_line h
  cases renamedTo <;> simp [toJson, ImportFlags.toJson, isExact, haveExact, member?, hline]

/-- The value of metadata that fit is exact. -/
theorem Metadata.isExact_toJson {m : Metadata} (h : m.Fits) : m.toJson.isExact = true := by
  have hfunctions := areExact_map fun f hf => FunctionInfo.isExact_toJson (h.functions f hf)
  have hclasses := areExact_map fun c hc => ClassInfo.isExact_toJson (h.classes c hc)
  have hbindings := areExact_map fun v hv => VariableInfo.isExact_toJson (h.bindings v hv)
  have himports := areExact_map fun i hi => ImportInfo.isExact_toJson (h.imports i hi)
  have hnodes := isExact_nat h.totalNodes
  cases herror : m.parseError <;>
    simp [toJson, isExact, haveExact, member?, herror, hfunctions, hclasses, hbindings, himports,
      hnodes]

/-- Metadata from a text. -/
def Metadata.ofText? (s : String) : Option Metadata := (Json.parse s).toOption.bind ofJson?

/-- **What is written is read back**, as a value and as either text, exactly if it fits; and so are
the names of relations and of what names are bound as. -/
theorem Metadata.ofText?_toJson_iff (m : Metadata) :
    (ofJson? m.toJson = some m ↔ m.Fits) ∧
      (ofText? m.toJson.compact = some m ↔ m.Fits) ∧
      (ofText? m.toJson.pretty = some m ↔ m.Fits) ∧
      (∀ r : Relation, asWord? Relation.ofName? (.str r.name) = some r) ∧
      (∀ b : Binding, asWord? Binding.ofName? (.str b.name) = some b) := by
  have hfits : ∀ {s}, ofText? s = some m → m.Fits := fun h => by
    obtain ⟨v, -, hv⟩ := Option.bind_eq_some_iff.mp h
    exact fits_of_ofJson? hv
  have hread : ∀ {s}, m.Fits → Json.parse s = .ok m.toJson → ofText? s = some m :=
    fun h hs => by
      rw [ofText?, hs]
      exact ofJson?_toJson h
  refine ⟨⟨fits_of_ofJson?, ofJson?_toJson⟩, ⟨hfits, fun h => hread h ?_⟩,
    ⟨hfits, fun h => hread h ?_⟩, Relation.ofName?_name, Binding.ofName?_name⟩
  · exact parse_compact (isExact_toJson h)
  · exact parse_pretty (isExact_toJson h)

end CodeDiagram
