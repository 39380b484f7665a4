/-
# What `config` prints

The command writes the settings that hold as a text, and where they have none, the text of the
defaults in their place.  On a host in memory this is a matter of three counts
(`config_readsBack_iff`): what is printed reads as the settings that hold exactly if none of the
counts that named values set is too large for a text.
-/
import CodeDiagram.Proofs.Settings.Loading
import CodeDiagram.Syntax.Recorded

namespace CodeDiagram.CommandLine

open Toml (integerBound)

/-- The command succeeds where settings hold, and prints what is written for them. -/
theorem run_config {memory : Memory} {c : Settings}
    (loaded : (loadSettings Memory.host memory).1 = .ok c) :
    (run Memory.host ["config"] memory).1 = success c.text := by
  have words : parse ["config"] = .ok .config := by rfl
  rw [run, words]
  simp only [execute, bind, StateT.bind]
  generalize loadSettings Memory.host memory = found at loaded ⊢
  obtain ⟨r, memory'⟩ := found
  cases loaded
  rfl

/-- **What `config` prints reads as the settings that hold exactly if the three counts that named
values can set fit into a text.**  It succeeds in any case. -/
theorem config_readsBack_iff {memory : Memory} {c : Settings}
    (loaded : (loadSettings Memory.host memory).1 = .ok c) :
    (run Memory.host ["config"] memory).1.exit = 0 ∧
      (Settings.ofText? (run Memory.host ["config"] memory).1.stdout = some c ↔
        c.pipeline.maxDepth < integerBound ∧ c.layout.iterations < integerBound ∧
          c.server.timeoutSeconds < integerBound) := by
  obtain ⟨s, values, written, finished⟩ := finished_of_loadSettings loaded
  rw [run_config loaded]
  exact ⟨rfl, ofText_text_iff_of_finished written finished⟩

/-- A memory without files, where one named value sets the depth. -/
def memoryOfDepth (depth : String) : Memory where
  directory := ["work"]
  files := []
  values := [("CODEVIZ_MAX_DEPTH", depth)]
  grammar _ := Syntax.Tree.unread

/-- The defaults hold there but for the depth. -/
theorem loadSettings_memoryOfDepth {depth : String} {n : ℕ}
    (read : Number.natural? Number.countBound depth = some n) :
    (loadSettings Memory.host (memoryOfDepth depth)).1 = .ok { pipeline := { maxDepth := n } } := by
  have loaded : (loadSettings Memory.host (memoryOfDepth depth)).1 =
      finished [("CODEVIZ_MAX_DEPTH", depth)] {} := rfl
  rw [loaded, finished_eq_ok_iff]
  constructor
  · have set : overridden (fun name => List.lookup name [("CODEVIZ_MAX_DEPTH", depth)])
        Number.countBound "CODEVIZ_MAX_DEPTH" 10 = n := by
      simp [overridden, read]
    rw [Settings.override, set]
    rfl
  · rw [Settings.check_eq_ok_iff]
    have lengths := Settings.hasLengths_default
    exact ⟨show 4 ≤ 30 by decide, ⟨lengths.scale, lengths.springLength⟩,
      show (30 : ℕ) ≠ 0 by decide⟩

/-- The largest depth that fits is read back. -/
theorem config_readsBack_iff_largest :
    let memory := memoryOfDepth "9223372036854775807"
    let c : Settings := { pipeline := { maxDepth := 9223372036854775807 } }
    (loadSettings Memory.host memory).1 = .ok c ∧
      Settings.ofText? (run Memory.host ["config"] memory).1.stdout = some c := by
  intro memory c
  have loaded : (loadSettings Memory.host memory).1 = .ok c :=
    loadSettings_memoryOfDepth (by decide)
  exact ⟨loaded, (config_readsBack_iff loaded).2.mpr (by decide)⟩

/-- One more does not fit: the command succeeds, and what it prints reads as the defaults. -/
theorem config_loses_maxDepth :
    let memory := memoryOfDepth "9223372036854775808"
    let c : Settings := { pipeline := { maxDepth := 9223372036854775808 } }
    (loadSettings Memory.host memory).1 = .ok c ∧
      (run Memory.host ["config"] memory).1 = success Settings.defaultText ∧
      Settings.ofText? Settings.defaultText = some {} ∧
      Settings.ofText? (run Memory.host ["config"] memory).1.stdout ≠ some c := by
  intro memory c
  have loaded : (loadSettings Memory.host memory).1 = .ok c :=
    loadSettings_memoryOfDepth (by decide)
  have noText : c.text? = none := by
    cases written : c.text? with
    | none => rfl
    | some text => exact absurd (Settings.fits_of_text written).maxDepth (by decide)
  have printed : (run Memory.host ["config"] memory).1 = success Settings.defaultText := by
    rw [run_config loaded, Settings.text, noText, Option.getD_none]
  refine ⟨loaded, printed, Settings.ofText_defaultText, ?_⟩
  rw [printed]
  intro same
  have equal := Option.some.inj (Settings.ofText_defaultText.symm.trans same)
  have depth : (10 : ℕ) = 9223372036854775808 :=
    congrArg (fun s : Settings => s.pipeline.maxDepth) equal
  exact absurd depth (by decide)

end CodeDiagram.CommandLine
