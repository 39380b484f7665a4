/-
# Settings as text

Settings are written as a TOML text with a section for each part, and read from any TOML text.
Settings with a number that no TOML integer can hold have no text.
-/
import CodeDiagram.Settings.Decoding
import CodeDiagram.Toml.Printer
import CodeDiagram.Toml.Reader
import CodeDiagram.Toml.Value

namespace CodeDiagram

open Toml (naturalText? floatText quoted)

/-! ## 1. Writing -/

/-- The line of a field. -/
def fieldLine (key text : String) : String := key ++ " = " ++ text

/-- Limits of diagrams. -/
def PipelineSettings.lines? (s : PipelineSettings) : Option (List String) := do
  return ["[pipeline]", fieldLine "max_depth" (← naturalText? s.maxDepth),
    fieldLine "max_label_len" (← naturalText? s.maxLabelLength)]

/-- How nodes are placed. -/
def LayoutSettings.lines? (s : LayoutSettings) : Option (List String) := do
  return ["[layout]", fieldLine "iterations" (← naturalText? s.iterations)] ++
    (s.springLength.map fun k => fieldLine "spring_length" (floatText k)).toList ++
    [fieldLine "scale" (floatText s.scale)]

/-- How requests are served. -/
def ServerSettings.lines? (s : ServerSettings) : Option (List String) := do
  return ["[server]", fieldLine "host" (quoted s.host),
    fieldLine "port" (← naturalText? s.port),
    fieldLine "max_source_bytes" (← naturalText? s.maxSourceBytes),
    fieldLine "timeout_secs" (← naturalText? s.timeoutSeconds)]

/-- The text of settings, if they have one. -/
def Settings.text? (s : Settings) : Option String := do
  let lines := (← s.pipeline.lines?) ++ [""] ++ (← s.layout.lines?) ++ [""] ++ (← s.server.lines?)
  return String.join (lines.map (· ++ "\n"))

/-- The text of the settings when nothing was set. -/
def Settings.defaultText : String := (Settings.text? {}).getD ""

/-- The text of settings, or that of the defaults if they have none. -/
def Settings.text (s : Settings) : String := s.text?.getD defaultText

/-! ## 2. Reading -/

/-- The settings of a text. -/
def Settings.ofText? (text : String) : Option Settings :=
  (Toml.parse text).bind fun es => Settings.ofJson? true es.toJson

end CodeDiagram
