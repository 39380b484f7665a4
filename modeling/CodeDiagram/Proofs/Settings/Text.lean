/-
# Settings and their text

Settings whose counts all have sixty-three bits have a text of their own, and reading it gives the
settings back (`Settings.Fits.ofText_text`): every line stands for its field
(`Settings.Fits.readsAs_texts`), whatever the host is called and whatever the lengths are.

Settings with a larger count have no text.  What is written for them is the text of the defaults,
which reads as the defaults, so the count is lost (`Settings.ofText_text_iff`).
-/
import CodeDiagram.Proofs.Toml.Lines
import CodeDiagram.Proofs.Toml.Numbers
import CodeDiagram.Proofs.Toml.Strings
import CodeDiagram.Proofs.Toml.Tables
import CodeDiagram.Settings.Check
import CodeDiagram.Settings.Text

namespace CodeDiagram

open Toml (Line ReadsAs integerBound naturalText? floatText quoted)

/-! ## 1. The lines of settings -/

/-- Every count of the settings is one that a text can hold. -/
structure Settings.Fits (s : Settings) : Prop where
  maxDepth : s.pipeline.maxDepth < integerBound
  maxLabelLength : s.pipeline.maxLabelLength < integerBound
  iterations : s.layout.iterations < integerBound
  port : s.server.port < integerBound
  maxSourceBytes : s.server.maxSourceBytes < integerBound
  timeoutSeconds : s.server.timeoutSeconds < integerBound

/-- The line of a length that may be left out. -/
def springText (k : Option Float) : List String :=
  (k.map fun k => fieldLine "spring_length" (floatText k)).toList

/-- The lines that settings are written in. -/
def Settings.texts (s : Settings) : List String :=
  ["[pipeline]",
    fieldLine "max_depth" (toString s.pipeline.maxDepth),
    fieldLine "max_label_len" (toString s.pipeline.maxLabelLength),
    "",
    "[layout]",
    fieldLine "iterations" (toString s.layout.iterations)] ++
  springText s.layout.springLength ++
  [fieldLine "scale" (floatText s.layout.scale),
    "",
    "[server]",
    fieldLine "host" (quoted s.server.host),
    fieldLine "port" (toString s.server.port),
    fieldLine "max_source_bytes" (toString s.server.maxSourceBytes),
    fieldLine "timeout_secs" (toString s.server.timeoutSeconds)]

theorem naturalText_of_lt {n : ℕ} (h : n < integerBound) : naturalText? n = some (toString n) :=
  Toml.naturalText_eq_some_iff.mpr ⟨h, rfl⟩

/-- Settings that fit are written in these lines. -/
theorem Settings.Fits.text_eq {s : Settings} (fits : s.Fits) :
    s.text? = some (String.join (s.texts.map (· ++ "\n"))) := by
  simp [Settings.text?, PipelineSettings.lines?, LayoutSettings.lines?, ServerSettings.lines?,
    naturalText_of_lt fits.maxDepth, naturalText_of_lt fits.maxLabelLength,
    naturalText_of_lt fits.iterations, naturalText_of_lt fits.port,
    naturalText_of_lt fits.maxSourceBytes, naturalText_of_lt fits.timeoutSeconds, Settings.texts,
    springText, String.append_assoc]

/-- Settings that do not fit are not written. -/
theorem Settings.fits_of_text {s : Settings} {text : String} (h : s.text? = some text) :
    s.Fits := by
  simp only [Settings.text?, PipelineSettings.lines?, LayoutSettings.lines?,
    ServerSettings.lines?, bind, pure, Option.bind_eq_some_iff, Toml.naturalText_eq_some_iff] at h
  obtain ⟨_, ⟨_, ⟨depth, -⟩, _, ⟨label, -⟩, -⟩, _, ⟨_, ⟨turns, -⟩, -⟩, _,
    ⟨_, ⟨port, -⟩, _, ⟨bytes, -⟩, _, ⟨seconds, -⟩, -⟩, -⟩ := h
  exact ⟨depth, label, turns, port, bytes, seconds⟩

/-! ## 2. What the lines stand for -/

/-- A line with a count. -/
def countLine (key : String) (n : ℕ) : Line := .pair ⟨[key], .scalar (.int n)⟩

/-- A line with a length. -/
def lengthLine (key : String) (x : Float) : Line := .pair ⟨[key], .scalar (.float x)⟩

/-- What the lines of settings stand for. -/
def Settings.lines (s : Settings) : List Line :=
  [.header ["pipeline"] false,
    countLine "max_depth" s.pipeline.maxDepth,
    countLine "max_label_len" s.pipeline.maxLabelLength,
    .blank,
    .header ["layout"] false,
    countLine "iterations" s.layout.iterations] ++
  (s.layout.springLength.map (lengthLine "spring_length")).toList ++
  [lengthLine "scale" s.layout.scale,
    .blank,
    .header ["server"] false,
    .pair ⟨["host"], .scalar (.str s.server.host)⟩,
    countLine "port" s.server.port,
    countLine "max_source_bytes" s.server.maxSourceBytes,
    countLine "timeout_secs" s.server.timeoutSeconds]

/-- The lengths of the settings are lengths. -/
structure Settings.HasLengths (s : Settings) : Prop where
  scale : isLength s.layout.scale = true
  springLength : ∀ k, s.layout.springLength = some k → isLength k = true

theorem readsAs_count {key : String} (bare : Toml.IsBareKey key) {n : ℕ} (h : n < integerBound) :
    ReadsAs (fieldLine key (toString n)) (countLine key n) :=
  Toml.readsAs_pair bare (Toml.scalar_naturalText (naturalText_of_lt h))

theorem readsAs_length {key : String} (bare : Toml.IsBareKey key) {x : Float}
    (h : isLength x = true) : ReadsAs (fieldLine key (floatText x)) (lengthLine key x) := by
  simp only [isLength, Bool.and_eq_true, decide_eq_true_eq] at h
  exact Toml.readsAs_pair bare (Toml.scalar_floatText h.1 h.2)

theorem readsAs_host {key : String} (bare : Toml.IsBareKey key) (host : String) :
    ReadsAs (fieldLine key (quoted host)) (.pair ⟨[key], .scalar (.str host)⟩) :=
  Toml.readsAs_pair bare (Toml.scalar_quoted host)

/-- **Every line of settings that fit stands for its field.** -/
theorem Settings.Fits.readsAs_texts {s : Settings} (fits : s.Fits) (lengths : s.HasLengths) :
    List.Forall₂ ReadsAs s.texts s.lines := by
  have spring : List.Forall₂ ReadsAs (springText s.layout.springLength)
      (s.layout.springLength.map (lengthLine "spring_length")).toList := by
    cases h : s.layout.springLength with
    | none => exact .nil
    | some k => exact .cons (readsAs_length (by decide) (lengths.springLength k h)) .nil
  refine List.rel_append (List.rel_append ?_ spring) ?_
  · exact .cons (Toml.readsAs_header "pipeline" (by decide)) <|
      .cons (readsAs_count (by decide) fits.maxDepth) <|
      .cons (readsAs_count (by decide) fits.maxLabelLength) <|
      .cons Toml.readsAs_blank <|
      .cons (Toml.readsAs_header "layout" (by decide)) <|
      .cons (readsAs_count (by decide) fits.iterations) .nil
  · exact .cons (readsAs_length (by decide) lengths.scale) <|
      .cons Toml.readsAs_blank <|
      .cons (Toml.readsAs_header "server" (by decide)) <|
      .cons (readsAs_host (by decide) s.server.host) <|
      .cons (readsAs_count (by decide) fits.port) <|
      .cons (readsAs_count (by decide) fits.maxSourceBytes) <|
      .cons (readsAs_count (by decide) fits.timeoutSeconds) .nil

/-! ## 3. The way back -/

/-- The parts of settings with the values of their fields. -/
def Settings.parts (s : Settings) : List (String × Toml.Entries) :=
  [("pipeline",
      [("max_depth", .scalar (.int s.pipeline.maxDepth)),
        ("max_label_len", .scalar (.int s.pipeline.maxLabelLength))]),
    ("layout",
      ("iterations", .scalar (.int s.layout.iterations)) ::
        (s.layout.springLength.map fun k => ("spring_length", .scalar (.float k))).toList ++
        [("scale", .scalar (.float s.layout.scale))]),
    ("server",
      [("host", .scalar (.str s.server.host)),
        ("port", .scalar (.int s.server.port)),
        ("max_source_bytes", .scalar (.int s.server.maxSourceBytes)),
        ("timeout_secs", .scalar (.int s.server.timeoutSeconds))])]

/-- The lines are sections of the parts. -/
theorem Settings.sections_lines (s : Settings) :
    Toml.sections s.lines = ([], s.parts.map Toml.Entries.sectionOf) := by
  rw [Settings.lines, Settings.parts]
  cases s.layout.springLength <;> rfl

theorem Settings.nodup_parts (s : Settings) : (s.parts.map (·.1)).Nodup := by
  simp [Settings.parts]

theorem Settings.nodup_keys (s : Settings) : ∀ part ∈ s.parts, part.2.keys.Nodup := by
  rw [Settings.parts]
  cases s.layout.springLength <;> simp [Toml.Entries.keys]

/-- **The text of settings that fit is read as the table of their parts.** -/
theorem Settings.Fits.parse_texts {s : Settings} (fits : s.Fits) (lengths : s.HasLengths) :
    Toml.parse (String.join (s.texts.map (· ++ "\n"))) =
      some (s.parts.map Toml.Entries.tableOf) := by
  rw [Toml.parse_join (fits.readsAs_texts lengths) (by simp [Settings.texts, Toml.charsOf]),
    s.sections_lines]
  exact Toml.Entries.ofSections_parts s.nodup_parts s.nodup_keys

/-- A count is read if it is in range. -/
theorem asNat_natCast {n bound : ℕ} (h : n < bound) : Json.asNat? bound (.int n) = some n :=
  if_pos h

/-- What a text can hold is in the range of counts. -/
theorem asCount_of_lt {n : ℕ} (h : n < integerBound) : asCount? (.int n) = some n :=
  asNat_natCast (Nat.lt_trans h (by decide))

/-- Limits of diagrams as a value. -/
def PipelineSettings.json (p : PipelineSettings) : Json :=
  .obj [("max_depth", .int p.maxDepth), ("max_label_len", .int p.maxLabelLength)]

theorem PipelineSettings.ofJson_json (p : PipelineSettings) (depth : p.maxDepth < integerBound)
    (label : p.maxLabelLength < integerBound) : ofJson? true p.json = some p := by
  simp [ofJson?, json, Json.record?, Json.Record.defaulted, Json.Record.find?, Json.get?,
    asCount_of_lt depth, asCount_of_lt label]

/-- Placement as a value. -/
def LayoutSettings.json (l : LayoutSettings) : Json :=
  .obj (("iterations", .int l.iterations) ::
    (l.springLength.map fun k => ("spring_length", Json.float k)).toList ++
    [("scale", .float l.scale)])

theorem LayoutSettings.ofJson_json (l : LayoutSettings) (turns : l.iterations < integerBound) :
    ofJson? true l.json = some l := by
  obtain ⟨iterations, springLength, scale⟩ := l
  cases springLength <;>
    simp [ofJson?, json, Json.record?, Json.Record.defaulted, Json.Record.find?, Json.get?,
      asCount_of_lt turns, Json.asFloat?, Json.asOption?]

/-- Service as a value. -/
def ServerSettings.json (r : ServerSettings) : Json :=
  .obj [("host", .str r.host), ("port", .int r.port), ("max_source_bytes", .int r.maxSourceBytes),
    ("timeout_secs", .int r.timeoutSeconds)]

theorem ServerSettings.ofJson_json (r : ServerSettings) (port : r.port < Number.portBound)
    (bytes : r.maxSourceBytes < integerBound) (seconds : r.timeoutSeconds < integerBound) :
    ofJson? true r.json = some r := by
  simp [ofJson?, json, Json.record?, Json.Record.defaulted, Json.Record.find?, Json.get?,
    Json.asString?, asNat_natCast port, asCount_of_lt bytes, asCount_of_lt seconds]

/-- The table of the parts as a value. -/
theorem Settings.toJson_parts (s : Settings) :
    Toml.Entries.toJson (s.parts.map Toml.Entries.tableOf) =
      .obj [("pipeline", s.pipeline.json), ("layout", s.layout.json),
        ("server", s.server.json)] := by
  rw [Settings.parts, LayoutSettings.json]
  cases s.layout.springLength <;> rfl

/-- **Settings that fit are read back from their text.** -/
theorem Settings.Fits.ofText_text {s : Settings} (fits : s.Fits)
    (port : s.server.port < Number.portBound) (lengths : s.HasLengths) :
    Settings.ofText? s.text = some s := by
  rw [Settings.text, fits.text_eq, Option.getD_some, Settings.ofText?, fits.parse_texts lengths,
    Option.bind_some, s.toJson_parts]
  simp [Settings.ofJson?, Json.record?, Json.Record.defaulted, Json.Record.find?, Json.get?,
    s.pipeline.ofJson_json fits.maxDepth fits.maxLabelLength,
    s.layout.ofJson_json fits.iterations,
    s.server.ofJson_json port fits.maxSourceBytes fits.timeoutSeconds]

/-! ## 4. Settings that do not fit -/

/-- The defaults fit. -/
theorem Settings.fits_default : Settings.Fits {} := by
  constructor <;> decide

theorem Settings.hasLengths_default : Settings.HasLengths {} where
  scale := by decide
  springLength k h := by cases h

/-- The text of the defaults is read as the defaults. -/
theorem Settings.ofText_defaultText : Settings.ofText? Settings.defaultText = some {} :=
  Settings.fits_default.ofText_text (by decide) Settings.hasLengths_default

/-- **Settings are read back from what is written for them exactly if they fit.** -/
theorem Settings.ofText_text_iff {s : Settings} (port : s.server.port < Number.portBound)
    (lengths : s.HasLengths) : Settings.ofText? s.text = some s ↔ s.Fits := by
  refine ⟨fun h => ?_, fun fits => fits.ofText_text port lengths⟩
  cases written : s.text? with
  | some text => exact Settings.fits_of_text written
  | none =>
    rw [Settings.text, written, Option.getD_none, Settings.ofText_defaultText] at h
    rw [← Option.some.inj h]
    exact Settings.fits_default

end CodeDiagram
