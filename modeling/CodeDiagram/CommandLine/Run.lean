/-
# Running a command

Settings come from the file next to the reader, else from the reader's own file, else they are the
defaults; then named values override some of them, and then they are checked.  A command that fails
says why on one line.
-/
import CodeDiagram.CommandLine.Help
import CodeDiagram.CommandLine.Host
import CodeDiagram.Drawing.Svg
import CodeDiagram.Report.Encoding
import CodeDiagram.Settings.Check
import CodeDiagram.Settings.Text

namespace CodeDiagram.CommandLine

/-! ## 1. Outcomes -/

/-- Why a command fails. -/
inductive Failure where
  | unreadableSettings (f : FileFault)
  | malformedSettings
  | unfitSettings (f : SettingsFault)
  | file (f : FileFault)
  | request (e : RequestError)
  | service (message : String)

/-- The wording of a failure. -/
def Failure.message : Failure → String
  | .unreadableSettings f => "Failed to read config file: " ++ f.message
  | .malformedSettings => "Failed to parse config file:"
  | .unfitSettings f => "Invalid configuration: " ++ f.message
  | .file f => f.message
  | .request e => e.message
  | .service message => message

/-- What is left of a command. -/
structure Outcome where
  exit : Nat
  stdout : String := ""
  stderr : Option String := none
deriving DecidableEq, Repr

/-- A command that did what it should. -/
def success (stdout : String) : Outcome := { exit := 0, stdout }

/-- A command that failed. -/
def failed (f : Failure) : Outcome := { exit := 1, stderr := some ("Error: " ++ f.message) }

/-- The answer to words that are no command: how the program is used, or the page they ask for. -/
def stopped : Stop → Outcome
  | .usage => { exit := 2, stderr := some Topic.program.page.usageLine }
  | .help topic => success (topic.page.text ++ "\n")

/-! ## 2. Settings -/

variable {m : Type → Type} [Monad m]

/-- The settings file next to the reader. -/
def localSettings : String := "codeviz.toml"

/-- A name inside a directory. -/
def inside (directory name : String) : String :=
  if directory.toList.getLast? == some '/' then directory ++ name else directory ++ "/" ++ name

/-- Whether a path starts at the root. -/
def isAbsolute (path : String) : Bool := path.toList.head? == some '/'

/-- The directory of the reader's own settings. -/
def settingsDirectory? (settingsHome home : Option String) : Option String :=
  match settingsHome.filter isAbsolute with
  | some directory => some directory
  | none => (home.filter (!·.isEmpty)).map (inside · ".config")

/-- The reader's own settings file. -/
def userSettings? (settingsHome home : Option String) : Option String :=
  (settingsDirectory? settingsHome home).map fun d => inside (inside d "codeviz") "config.toml"

/-- The settings file that is used, if there is one. -/
def settingsFile? (h : Host m) : m (Option String) := do
  if ← h.isThere localSettings then return some localSettings
  match userSettings? (← h.value? "XDG_CONFIG_HOME") (← h.value? "HOME") with
  | some path => if ← h.isThere path then return some path else return none
  | none => return none

/-- The settings of a file. -/
def readSettings (h : Host m) (path : String) : m (Except Failure Settings) := do
  match ← h.read path with
  | .error f => return .error (.unreadableSettings f)
  | .ok text =>
    match Settings.ofText? text with
    | some s => return .ok s
    | none => return .error .malformedSettings

/-- The names whose values override settings. -/
def overrideNames : List String :=
  ["CODEVIZ_MAX_DEPTH", "CODEVIZ_LAYOUT_ITERATIONS", "CODEVIZ_PORT", "CODEVIZ_TIMEOUT_SECS"]

/-- The values of some names. -/
def valuesOf (h : Host m) (names : List String) : m (List (String × String)) := do
  let found ← names.mapM fun name => do return (← h.value? name).map fun v => (name, v)
  return found.filterMap id

/-- Settings that were overridden and found fit. -/
def finished (values : List (String × String)) (s : Settings) : Except Failure Settings := do
  let s := s.override fun name => values.lookup name
  s.check.mapError .unfitSettings
  return s

/-- The settings that hold. -/
def loadSettings (h : Host m) : m (Except Failure Settings) := do
  let s ←
    match ← settingsFile? h with
    | some path => readSettings h path
    | none => pure (.ok {})
  let values ← valuesOf h overrideNames
  return s.bind (finished values)

/-! ## 3. Commands -/

/-- The language of a file: the one that is named, else the one of its ending, else the likely
one. -/
def languageOf (file source name : String) : Except RequestError Language :=
  if Text.sameAscii name "auto" then
    match (Text.extension? file).bind Language.ofExtension with
    | some l => .ok l
    | none => Language.resolve source "auto"
  else Language.resolve source name

/-- The diagram of a file's text. -/
def visualize (settings : Settings) (grammar : Language → Syntax.Grammar) (o : RenderOptions)
    (source : String) : Except RequestError Visualization := do
  let language ← languageOf o.file source o.language
  let diagram ← DiagramKind.ofName o.diagram
  let p : Pipeline := { settings, grammar }
  p.run { source, language, diagram, maxDepth := o.maxDepth }

/-- A diagram in a certain form. -/
def Format.render (f : Format) (v : Visualization) : String :=
  match f with
  | .json => v.toJson.pretty
  | .svg => v.drawing.svg

/-- Renders a diagram and writes it. -/
def render (h : Host m) (settings : Settings) (o : RenderOptions) : m Outcome := do
  match ← h.read o.file with
  | .error f => return failed (.file f)
  | .ok source =>
    match visualize settings (← h.grammar o.file) o source with
    | .error e => return failed (.request e)
    | .ok v =>
      let text := o.format.render v
      match o.output with
      | none => return success (text ++ "\n")
      | some path =>
        match ← h.write path text with
        | .error f => return failed (.file f)
        | .ok _ => return success ("Wrote " ++ v.title ++ " to " ++ path ++ "\n")

/-- Serves requests, perhaps at another port. -/
def serve (h : Host m) (settings : Settings) (port : Option Nat) : m Outcome := do
  let server := { settings.server with port := port.getD settings.server.port }
  match ← h.serve { settings with server } with
  | .error message => return failed (.service message)
  | .ok _ => return success ""

/-- Runs a command. -/
def execute (h : Host m) (c : Command) : m Outcome := do
  match ← loadSettings h with
  | .error f => return failed f
  | .ok settings =>
    match c with
    | .render o => render h settings o
    | .serve port => serve h settings port
    | .config => return success settings.text

/-- Runs the command that words stand for. -/
def run (h : Host m) (words : List String) : m Outcome :=
  match parse words with
  | .error s => pure (stopped s)
  | .ok c => execute h c

end CodeDiagram.CommandLine
