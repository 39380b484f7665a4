/-
# Settings that are loaded

Settings that a text stands for fit into a text again (`Settings.isWritten_of_ofText`): no integer
of a text is too large, and the defaults are small.  Overrides change that for the three counts that
they set, and for no other (`Settings.IsWritten.fits_override_iff`).  Settings that were found fit
have lengths (`Settings.check_eq_ok_iff`), so these three counts alone decide whether settings that
hold are read back from what is written for them (`ofText_text_iff_of_finished`).
-/
import CodeDiagram.CommandLine.Memory
import CodeDiagram.CommandLine.Run
import CodeDiagram.Proofs.Settings.Text
import CodeDiagram.Proofs.Toml.Integers

namespace CodeDiagram

open Json (Record)
open Number (countBound portBound)
open Toml (Entry integerBound)

/-! ## 1. Values of a text -/

/-- A value is what an entry without large integers stands for. -/
def Json.IsBounded (v : Json) : Prop := ∃ e : Entry, e.IsBounded ∧ v = e.toJson

theorem lt_of_asCount {v : Json} (h : v.IsBounded) {n : ℕ} (counted : asCount? v = some n) :
    n < integerBound := by
  obtain ⟨e, he, rfl⟩ := h
  cases he with
  | @scalar v hv =>
    cases v with
    | int m =>
      cases m with
      | ofNat m =>
        simp only [asCount?, Entry.toJson, Toml.Scalar.toJson, Json.asNat?] at counted
        split at counted
        · cases counted
          exact Int.ofNat_lt.mp hv
        · cases counted
      | negSucc m => cases counted
    | _ => cases counted
  | _ => cases counted

theorem entriesToJson_eq (es : List (String × Entry)) :
    Toml.entriesToJson es = es.map fun p => (p.1, p.2.toJson) := by
  induction es with
  | nil => rfl
  | cons p es ih => simp [Toml.entriesToJson, ih]

theorem itemsToJson_eq (items : List Entry) : Toml.itemsToJson items = items.map (·.toJson) := by
  induction items with
  | nil => rfl
  | cons e items ih => simp [Toml.itemsToJson, ih]

theorem tablesToJson_eq (all : List (List (String × Entry))) :
    Toml.tablesToJson all = all.map fun es => (Entry.inline es).toJson := by
  induction all with
  | nil => rfl
  | cons es all ih => simp [Toml.tablesToJson, Entry.toJson, ih]

/-- What stands under a key of a table has no large integers. -/
theorem isBounded_of_get {es : List (String × Entry)} (h : ∀ p ∈ es, p.2.IsBounded) {key : String}
    {w : Json} (found : (Json.obj (Toml.entriesToJson es)).get? key = some w) : w.IsBounded := by
  obtain ⟨p, hp, rfl⟩ := Option.map_eq_some_iff.mp found
  have there := List.mem_of_find?_eq_some hp
  rw [List.mem_reverse, entriesToJson_eq, List.mem_map] at there
  obtain ⟨q, hq, rfl⟩ := there
  exact ⟨q.2, h q hq, rfl⟩

/-- What is found in a record of a text has no large integers. -/
theorem Json.IsBounded.find {v : Json} (h : v.IsBounded) {size : ℕ} {spare : Bool} {r : Record}
    (isRecord : v.record? size spare = some r) {place : ℕ} {key : String} {w : Json}
    (found : r.find? place key = some w) : w.IsBounded := by
  obtain ⟨e, he, rfl⟩ := h
  cases he with
  | @scalar v hv =>
    cases v with
    | moment =>
      cases isRecord
      exact @isBounded_of_get [] Toml.Entries.isBounded_nil key w found
    | _ => cases isRecord
  | array items =>
    simp only [Entry.toJson, Json.record?] at isRecord
    split at isRecord
    · cases isRecord
      have there := List.mem_of_getElem? found
      rw [itemsToJson_eq, List.mem_map] at there
      obtain ⟨e, he, rfl⟩ := there
      exact ⟨e, items e he, rfl⟩
    · cases isRecord
  | inline hes =>
    cases isRecord
    exact isBounded_of_get hes found
  | table hes =>
    cases isRecord
    exact isBounded_of_get hes found
  | tables hall =>
    simp only [Entry.toJson, Json.record?] at isRecord
    split at isRecord
    · cases isRecord
      have there := List.mem_of_getElem? found
      rw [tablesToJson_eq, List.mem_map] at there
      obtain ⟨es, hes, rfl⟩ := there
      exact ⟨.inline es, .inline (hall es hes), rfl⟩
    · cases isRecord

/-- A field is what its value is read as, or what stands in for it. -/
theorem defaulted_eq_some_iff {α : Type} {r : Record} {place : ℕ} {key : String} {fallback x : α}
    {read : Json → Option α} : r.defaulted place key fallback read = some x ↔
      (r.find? place key = none ∧ fallback = x) ∨
        ∃ w, r.find? place key = some w ∧ read w = some x := by
  unfold Record.defaulted
  split <;> simp [*]

/-- A count of a record fits if what stands in for it does. -/
theorem Json.IsBounded.count_lt {v : Json} (h : v.IsBounded) {size : ℕ} {spare : Bool} {r : Record}
    (isRecord : v.record? size spare = some r) {place : ℕ} {key : String} {fallback n : ℕ}
    (small : fallback < integerBound) (field : r.defaulted place key fallback asCount? = some n) :
    n < integerBound := by
  rcases defaulted_eq_some_iff.mp field with ⟨-, rfl⟩ | ⟨w, found, counted⟩
  · exact small
  · exact lt_of_asCount (h.find isRecord found) counted

/-! ## 2. Settings of a text -/

theorem PipelineSettings.lt_of_ofJson {v : Json} (h : v.IsBounded) {spare : Bool}
    {p : PipelineSettings} (read : PipelineSettings.ofJson? spare v = some p) :
    p.maxDepth < integerBound ∧ p.maxLabelLength < integerBound := by
  simp only [PipelineSettings.ofJson?, bind, Option.bind_eq_some_iff] at read
  obtain ⟨r, isRecord, depth, hdepth, label, hlabel, same⟩ := read
  cases same
  exact ⟨h.count_lt isRecord (by decide) hdepth, h.count_lt isRecord (by decide) hlabel⟩

theorem LayoutSettings.lt_of_ofJson {v : Json} (h : v.IsBounded) {spare : Bool}
    {l : LayoutSettings} (read : LayoutSettings.ofJson? spare v = some l) :
    l.iterations < integerBound := by
  simp only [LayoutSettings.ofJson?, bind, Option.bind_eq_some_iff] at read
  obtain ⟨r, isRecord, turns, hturns, _, -, _, -, same⟩ := read
  cases same
  exact h.count_lt isRecord (by decide) hturns

theorem ServerSettings.lt_of_ofJson {v : Json} (h : v.IsBounded) {spare : Bool}
    {r : ServerSettings} (read : ServerSettings.ofJson? spare v = some r) :
    r.port < portBound ∧ r.maxSourceBytes < integerBound ∧ r.timeoutSeconds < integerBound := by
  simp only [ServerSettings.ofJson?, bind, Option.bind_eq_some_iff] at read
  obtain ⟨r, isRecord, _, -, port, hport, bytes, hbytes, seconds, hseconds, same⟩ := read
  cases same
  refine ⟨?_, h.count_lt isRecord (by decide) hbytes, h.count_lt isRecord (by decide) hseconds⟩
  rcases defaulted_eq_some_iff.mp hport with ⟨-, rfl⟩ | ⟨w, -, counted⟩
  · exact (show (3333 : ℕ) < portBound by decide)
  · unfold Json.asNat? at counted
    split at counted
    · split at counted
      · next small =>
        cases counted
        exact small
      · cases counted
    · cases counted

/-- What can be said of all settings that a text stands for, and of the defaults. -/
structure Settings.IsWritten (s : Settings) : Prop where
  fits : s.Fits
  port : s.server.port < portBound

theorem Settings.isWritten_default : Settings.IsWritten {} := ⟨Settings.fits_default, by decide⟩

/-- **Settings of a text fit into a text.** -/
theorem Settings.isWritten_of_ofText {text : String} {s : Settings}
    (h : Settings.ofText? text = some s) : s.IsWritten := by
  obtain ⟨es, parsed, read⟩ := Option.bind_eq_some_iff.mp h
  have whole : Json.IsBounded es.toJson :=
    ⟨.inline es, .inline (Toml.isBounded_of_parse parsed), rfl⟩
  simp only [Settings.ofJson?, bind, Option.bind_eq_some_iff] at read
  obtain ⟨r, isRecord, p, hp, l, hl, v, hv, same⟩ := read
  cases same
  have pipeline : p.maxDepth < integerBound ∧ p.maxLabelLength < integerBound := by
    rcases defaulted_eq_some_iff.mp hp with ⟨-, rfl⟩ | ⟨w, found, read⟩
    · decide
    · exact PipelineSettings.lt_of_ofJson (whole.find isRecord found) read
  have layout : l.iterations < integerBound := by
    rcases defaulted_eq_some_iff.mp hl with ⟨-, rfl⟩ | ⟨w, found, read⟩
    · decide
    · exact LayoutSettings.lt_of_ofJson (whole.find isRecord found) read
  have server : v.port < portBound ∧ v.maxSourceBytes < integerBound ∧
      v.timeoutSeconds < integerBound := by
    rcases defaulted_eq_some_iff.mp hv with ⟨-, rfl⟩ | ⟨w, found, read⟩
    · decide
    · exact ServerSettings.lt_of_ofJson (whole.find isRecord found) read
  have port : v.port < integerBound := Nat.lt_trans server.1 (by decide)
  exact ⟨⟨pipeline.1, pipeline.2, layout, port, server.2.1, server.2.2⟩, server.1⟩

/-! ## 3. Overrides and checks -/

theorem lt_of_natural {bound n : ℕ} {text : String} (h : Number.natural? bound text = some n) :
    n < bound := by
  simp only [Number.natural?] at h
  split at h
  · cases h
  · split at h
    · next small =>
      cases h
      exact small
    · cases h

/-- An override stays below its bound. -/
theorem overridden_lt {lookup : String → Option String} {bound n : ℕ} (h : n < bound)
    (key : String) : overridden lookup bound key n < bound := by
  unfold overridden
  cases found : (lookup key).bind (Number.natural? bound) with
  | none => exact h
  | some m =>
    obtain ⟨text, -, read⟩ := Option.bind_eq_some_iff.mp found
    exact lt_of_natural read

/-- An overridden port is still a port. -/
theorem Settings.IsWritten.port_override {s : Settings} (h : s.IsWritten)
    (lookup : String → Option String) : (s.override lookup).server.port < portBound :=
  overridden_lt h.port _

/-- Overrides set three counts and a port; the port still fits. -/
theorem Settings.IsWritten.fits_override_iff {s : Settings} (h : s.IsWritten)
    (lookup : String → Option String) :
    (s.override lookup).Fits ↔ (s.override lookup).pipeline.maxDepth < integerBound ∧
      (s.override lookup).layout.iterations < integerBound ∧
      (s.override lookup).server.timeoutSeconds < integerBound := by
  have port : (s.override lookup).server.port < integerBound :=
    Nat.lt_trans (h.port_override lookup) (by decide)
  exact ⟨fun fits => ⟨fits.maxDepth, fits.iterations, fits.timeoutSeconds⟩,
    fun ⟨depth, turns, seconds⟩ =>
      ⟨depth, h.fits.maxLabelLength, turns, port, h.fits.maxSourceBytes, seconds⟩⟩

/-- A demand in front of more steps: what does not break it gets to them. -/
theorem ite_throw_bind_eq_ok_iff {ε α : Type} {c : Prop} [Decidable c] {e : ε}
    {next : Unit → Except ε α} {a : α} :
    (if c then throw e >>= next else next ()) = .ok a ↔ ¬c ∧ next () = .ok a := by
  by_cases h : c <;> simp [h, throw, throwThe, MonadExceptOf.throw, bind, Except.bind]

/-- A demand at the end. -/
theorem ite_throw_eq_ok_iff {ε : Type} {c : Prop} [Decidable c] {e : ε} :
    (if c then throw e else pure () : Except ε Unit) = .ok () ↔ ¬c := by
  by_cases h : c <;> simp [h, throw, throwThe, MonadExceptOf.throw, pure, Except.pure]

/-- What settings are checked for. -/
theorem Settings.check_eq_ok_iff {s : Settings} : s.check = .ok () ↔
    leastLabelLength ≤ s.pipeline.maxLabelLength ∧ s.HasLengths ∧ s.server.timeoutSeconds ≠ 0 := by
  have lengths : s.HasLengths ↔ isLength s.layout.scale = true ∧
      ∀ k, s.layout.springLength = some k → isLength k = true :=
    ⟨fun h => ⟨h.scale, h.springLength⟩, fun ⟨scale, spring⟩ => ⟨scale, spring⟩⟩
  unfold Settings.check
  rw [lengths]
  cases s.layout.springLength <;>
    simp [ite_throw_bind_eq_ok_iff, ite_throw_eq_ok_iff, and_assoc]

namespace CommandLine

/-- Settings that hold were overridden and then found fit. -/
theorem finished_eq_ok_iff {values : List (String × String)} {s c : Settings} :
    finished values s = .ok c ↔
      c = s.override (fun name => values.lookup name) ∧ c.check = .ok () := by
  simp only [finished]
  cases checked : (s.override fun name => values.lookup name).check with
  | error f =>
    simp only [Except.mapError, bind, Except.bind, reduceCtorEq, false_iff, not_and]
    rintro rfl
    simp [checked]
  | ok u =>
    simp only [Except.mapError, bind, Except.bind, pure, Except.pure, Except.ok.injEq]
    constructor
    · rintro rfl
      exact ⟨rfl, checked⟩
    · exact fun h => h.1.symm

/-- **Settings that hold are read back from what is written for them exactly if the three counts
that can be set from outside fit.** -/
theorem ofText_text_iff_of_finished {values : List (String × String)} {s c : Settings}
    (written : s.IsWritten) (h : finished values s = .ok c) :
    Settings.ofText? c.text = some c ↔ c.pipeline.maxDepth < integerBound ∧
      c.layout.iterations < integerBound ∧ c.server.timeoutSeconds < integerBound := by
  obtain ⟨rfl, checked⟩ := finished_eq_ok_iff.mp h
  rw [Settings.ofText_text_iff (written.port_override _) (Settings.check_eq_ok_iff.mp checked).2.1]
  exact written.fits_override_iff _

/-! ## 4. Loading from a memory -/

/-- What a file is read as stands in a text. -/
theorem isWritten_of_readSettings {memory : Memory} {path : String} {s : Settings}
    (h : (readSettings Memory.host path memory).1 = .ok s) : s.IsWritten := by
  have isRead : Memory.host.read path memory = (memory.read path, memory) := rfl
  simp only [readSettings, bind, StateT.bind, isRead] at h
  cases found : memory.read path with
  | error f =>
    rw [found] at h
    cases h
  | ok text =>
    rw [found] at h
    dsimp only at h
    cases read : Settings.ofText? text with
    | none =>
      rw [read] at h
      cases h
    | some t =>
      rw [read] at h
      cases h
      exact Settings.isWritten_of_ofText read

/-- Settings that are loaded come from a text or are the defaults; then they are overridden and
found fit. -/
theorem finished_of_loadSettings {memory : Memory} {c : Settings}
    (h : (loadSettings Memory.host memory).1 = .ok c) :
    ∃ s values, s.IsWritten ∧ finished values s = .ok c := by
  have run (first : StateM Memory (Except Failure Settings)) (memory' : Memory) :
      ((first >>= fun s => valuesOf Memory.host overrideNames >>= fun values =>
        pure (s.bind (finished values)) : StateM Memory (Except Failure Settings)) memory').1 =
      (first memory').1.bind
        (finished (valuesOf Memory.host overrideNames (first memory').2).1) := rfl
  simp only [loadSettings, bind, StateT.bind] at h run
  generalize settingsFile? Memory.host memory = found at h
  obtain ⟨file, memory'⟩ := found
  cases file with
  | some path =>
    have h := (run (readSettings Memory.host path) memory').symm.trans h
    cases read : (readSettings Memory.host path memory').1 with
    | error f =>
      rw [read] at h
      cases h
    | ok s =>
      rw [read] at h
      exact ⟨s, _, isWritten_of_readSettings read, h⟩
  | none =>
    exact ⟨{}, _, Settings.isWritten_default, (run (pure (.ok {})) memory').symm.trans h⟩

end CommandLine

end CodeDiagram
