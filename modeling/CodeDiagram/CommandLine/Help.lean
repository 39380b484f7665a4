/-
# Help

What a command is for, and which values and options it takes.  There is a page for the program and
one for each of its commands.  A page lists terms with their meanings, and the meanings of a section
stand in one column.
-/
import CodeDiagram.CommandLine.Arguments

namespace CodeDiagram.CommandLine

/-! ## 1. Pages -/

/-- A term and what it means. -/
structure HelpEntry where
  term : String
  meaning : String
deriving DecidableEq, Repr

/-- Terms under a heading. -/
structure HelpSection where
  heading : String
  entries : List HelpEntry
deriving DecidableEq, Repr

/-- What is told about one topic. -/
structure HelpPage where
  purpose : String
  /-- How the words of a command follow one another. -/
  usage : String
  sections : List HelpSection
deriving DecidableEq, Repr

/-- The width of the column of terms. -/
def HelpSection.width (s : HelpSection) : Nat :=
  s.entries.foldl (fun w e => max w e.term.length) 0

/-- An entry with its meaning behind the column of terms. -/
def HelpEntry.line (width : Nat) (e : HelpEntry) : String :=
  "  " ++ String.ofList (e.term.toList.rightpad width ' ') ++ "  " ++ e.meaning

/-- The lines of a section, with an empty one in front. -/
def HelpSection.lines (s : HelpSection) : List String :=
  "" :: (s.heading ++ ":") :: s.entries.map (·.line s.width)

/-- A line that shows how a command is used. -/
def HelpPage.usageLine (p : HelpPage) : String := "Usage: " ++ p.usage

/-- The text of a page. -/
def HelpPage.text (p : HelpPage) : String :=
  String.intercalate "\n" ([p.purpose, "", p.usageLine] ++ p.sections.flatMap (·.lines))

/-! ## 2. The pages of the commands -/

/-- The option that asks for help; every command has it. -/
def helpEntry : HelpEntry := ⟨"-h, --help", "Print help"⟩

/-- An option with the letter in front, and room for one where it has none. -/
def OptionRule.entry {σ : Type} (o : OptionRule σ) : HelpEntry where
  term :=
    (match o.short with
      | some c => String.ofList ['-', c, ',', ' ']
      | none => "    ") ++
    "--" ++ o.long ++
    (match o.placeholder with
      | some name => " <" ++ name ++ ">"
      | none => "")
  meaning := o.meaning

/-- The options of a command. -/
def Rules.section {σ : Type} (rules : Rules σ) : HelpSection :=
  ⟨"Options", rules.options.map (·.entry) ++ [helpEntry]⟩

/-- The name that the program goes by. -/
def programName : String := "codeviz"

/-- What each command is for. -/
def Topic.purpose : Topic → String
  | .program => "AST, control-flow and data-dependency diagrams for Python and Java"
  | .render => "Render a diagram of a source file"
  | .serve => "Start the HTTP API"
  | .config => "Print the effective configuration as TOML"
  | .help => "Print this message or the help of the given subcommand(s)"

/-- The word of each command. -/
def Topic.command : Topic → String
  | .program => ""
  | .render => "render"
  | .serve => "serve"
  | .config => "config"
  | .help => "help"

/-- The words behind those that name a command. -/
def Topic.operands : Topic → String
  | .program => "[OPTIONS] <COMMAND>"
  | .render => "[OPTIONS] <FILE>"
  | .serve | .config => "[OPTIONS]"
  | .help => "[COMMAND]..."

/-- How a command is used. -/
def Topic.usage (t : Topic) : String :=
  String.intercalate " " ([programName, t.command, t.operands].filter (!·.isEmpty))

/-- The commands as entries. -/
def commandSection : HelpSection :=
  ⟨"Commands", [Topic.render, .serve, .config, .help].map fun t => ⟨t.command, t.purpose⟩⟩

/-- The terms of each page. -/
def Topic.sections : Topic → List HelpSection
  | .program => [commandSection, programRules.section]
  | .render => [⟨"Arguments", [⟨"<FILE>", "Source file to visualize"⟩]⟩, renderRules.section]
  | .serve => [serveRules.section]
  | .config => [configRules.section]
  | .help => [⟨"Arguments", [⟨"[COMMAND]...", "Print help for the subcommand(s)"⟩]⟩]

/-- The page of a topic. -/
def Topic.page (t : Topic) : HelpPage := ⟨t.purpose, t.usage, t.sections⟩

end CodeDiagram.CommandLine
