/-
# Overrides and checks

Some settings can be overridden by a named value from outside; a value that is not a number in range
is passed over.  `Settings.check` refuses settings that no diagram can be drawn with.
-/
import CodeDiagram.Number.Decimal
import CodeDiagram.Number.Natural
import CodeDiagram.Settings.Basic

namespace CodeDiagram

open Number

/-! ## 1. Overrides -/

/-- The number below a bound that a named value stands for, or the number so far. -/
def overridden (lookup : String → Option String) (bound : Nat) (key : String) (n : Nat) : Nat :=
  ((lookup key).bind (natural? bound)).getD n

/-- The settings with what `lookup` has to say. -/
def Settings.override (s : Settings) (lookup : String → Option String) : Settings :=
  { pipeline := { s.pipeline with
      maxDepth := overridden lookup countBound "CODEVIZ_MAX_DEPTH" s.pipeline.maxDepth }
    layout := { s.layout with
      iterations := overridden lookup countBound "CODEVIZ_LAYOUT_ITERATIONS" s.layout.iterations }
    server := { s.server with
      port := overridden lookup portBound "CODEVIZ_PORT" s.server.port
      timeoutSeconds :=
        overridden lookup countBound "CODEVIZ_TIMEOUT_SECS" s.server.timeoutSeconds } }

/-! ## 2. Checks -/

/-- Settings that no diagram can be drawn with. -/
inductive SettingsFault where
  /-- Labels could not be shortened. -/
  | shortLabels (length : Nat)
  /-- The square has no size. -/
  | badScale (scale : Float)
  /-- Edges have no length. -/
  | badSpringLength (length : Float)
  /-- There is no time for a request. -/
  | noTime

/-- The wording of a fault. -/
def SettingsFault.message : SettingsFault → String
  | .shortLabels n => "pipeline.max_label_len must be at least 4, got " ++ toString n
  | .badScale x => "layout.scale must be a positive number, got " ++ plain x
  | .badSpringLength x => "layout.spring_length must be a positive number, got " ++ plain x
  | .noTime => "server.timeout_secs must be non-zero"

/-- The fewest characters that labels may be limited to. -/
def leastLabelLength : Nat := 4

/-- Whether a number is a length. -/
def isLength (x : Float) : Bool := x.isFinite && x > 0

/-- The first fault of the settings. -/
def Settings.check (s : Settings) : Except SettingsFault Unit := do
  if s.pipeline.maxLabelLength < leastLabelLength then
    throw (.shortLabels s.pipeline.maxLabelLength)
  if !isLength s.layout.scale then throw (.badScale s.layout.scale)
  match s.layout.springLength with
  | some k => if !isLength k then throw (.badSpringLength k)
  | none => pure ()
  if s.server.timeoutSeconds = 0 then throw .noTime

end CodeDiagram
