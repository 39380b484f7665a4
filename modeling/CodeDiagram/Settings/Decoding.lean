/-
# Settings from values

Settings are read from a value that a settings text or a request stands for.  Sections and fields
that are left out keep their defaults.
-/
import CodeDiagram.Json.Record
import CodeDiagram.Number.Natural
import CodeDiagram.Settings.Basic

namespace CodeDiagram

open Json Number

/-- A count. -/
def asCount? : Json → Option Nat := asNat? countBound

/-- Limits of diagrams.  With `spare`, a list may have more items than there are fields. -/
def PipelineSettings.ofJson? (spare : Bool) (v : Json) : Option PipelineSettings := do
  let r ← v.record? 2 spare
  let d : PipelineSettings := {}
  return {
    maxDepth := ← r.defaulted 0 "max_depth" d.maxDepth asCount?
    maxLabelLength := ← r.defaulted 1 "max_label_len" d.maxLabelLength asCount? }

/-- How nodes are placed. -/
def LayoutSettings.ofJson? (spare : Bool) (v : Json) : Option LayoutSettings := do
  let r ← v.record? 3 spare
  let d : LayoutSettings := {}
  return {
    iterations := ← r.defaulted 0 "iterations" d.iterations asCount?
    springLength := ← r.defaulted 1 "spring_length" d.springLength (asOption? asFloat?)
    scale := ← r.defaulted 2 "scale" d.scale asFloat? }

/-- How requests are served. -/
def ServerSettings.ofJson? (spare : Bool) (v : Json) : Option ServerSettings := do
  let r ← v.record? 4 spare
  let d : ServerSettings := {}
  return {
    host := ← r.defaulted 0 "host" d.host asString?
    port := ← r.defaulted 1 "port" d.port (asNat? portBound)
    maxSourceBytes := ← r.defaulted 2 "max_source_bytes" d.maxSourceBytes asCount?
    timeoutSeconds := ← r.defaulted 3 "timeout_secs" d.timeoutSeconds asCount? }

/-- All settings. -/
def Settings.ofJson? (spare : Bool) (v : Json) : Option Settings := do
  let r ← v.record? 3 spare
  return {
    pipeline := ← r.defaulted 0 "pipeline" {} (PipelineSettings.ofJson? spare)
    layout := ← r.defaulted 1 "layout" {} (LayoutSettings.ofJson? spare)
    server := ← r.defaulted 2 "server" {} (ServerSettings.ofJson? spare) }

end CodeDiagram
