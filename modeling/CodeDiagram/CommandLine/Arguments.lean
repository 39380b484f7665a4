/-
# Arguments

The words after the program's name: a command, with options before, between and after its values.
An option is a long name behind two dashes or a letter behind one; its value stands behind an equals
sign, right behind the letter, or in the next word, which then must not look like an option.  No
option may be given twice.  Behind a lone pair of dashes every word is a value.
-/
import CodeDiagram.Number.Natural

namespace CodeDiagram.CommandLine

/-! ## 1. Words -/

/-- What help is about. -/
inductive Topic where
  /-- The program as a whole. -/
  | program
  | render
  | serve
  | config
  /-- Help itself. -/
  | help
deriving DecidableEq, Repr

/-- Why words are no command. -/
inductive Stop where
  /-- They make no sense. -/
  | usage
  /-- They ask for help. -/
  | help (topic : Topic)
deriving DecidableEq, Repr

/-- What a word looks like. -/
inductive Word where
  | value
  | escape
  | long (name : String) (value : Option String)
  | short (letters : List Char)
deriving DecidableEq, Repr

/-- A long option cut at its equals sign. -/
def Word.ofLong (cs : List Char) : Word :=
  let name := String.ofList (cs.takeWhile (· != '='))
  match cs.dropWhile (· != '=') with
  | _ :: text => .long name (some (String.ofList text))
  | [] => .long name none

/-- What a word looks like. -/
def Word.ofString (s : String) : Word :=
  match s.toList with
  | ['-', '-'] => .escape
  | '-' :: '-' :: cs => .ofLong cs
  | ['-'] => .value
  | '-' :: cs => .short cs
  | _ => .value

/-! ## 2. Options -/

/-- An option that changes a state; without a value it is a flag. -/
structure OptionRule (σ : Type) where
  long : String
  short : Option Char := none
  /-- What stands for the option's value where it is explained: a flag has none. -/
  placeholder : Option String := none
  meaning : String
  /-- The state with the option, if its value is right and it was not given before. -/
  set : String → σ → Option σ

/-- Whether an option has a value. -/
def OptionRule.valued {σ : Type} (o : OptionRule σ) : Bool := o.placeholder.isSome

/-- The options and the values of a command. -/
structure Rules (σ : Type) where
  topic : Topic
  /-- The options, in the order they are explained. -/
  options : List (OptionRule σ)
  value : String → σ → Option σ

variable {σ : Type}

/-- What is not there makes no sense. -/
def orUsage {α : Type} : Option α → Except Stop α
  | some a => .ok a
  | none => .error .usage

/-- Reads letters; the answer tells which option still waits for its value. -/
def shortOptions (rules : Rules σ) : List Char → σ → Except Stop (σ × Option (OptionRule σ))
  | [], s => .ok (s, none)
  | c :: cs, s => do
    if c == 'h' then throw (.help rules.topic)
    let o ← orUsage (rules.options.find? (·.short == some c))
    if o.valued then
      match cs with
      | [] => return (s, some o)
      | '=' :: value => return (← orUsage (o.set (String.ofList value) s), none)
      | value => return (← orUsage (o.set (String.ofList value) s), none)
    else shortOptions rules cs (← orUsage (o.set "" s))

/-- Reads a long option; the answer tells whether it still waits for its value. -/
def longOption (rules : Rules σ) (name : String) (value : Option String) (s : σ) :
    Except Stop (σ × Option (OptionRule σ)) := do
  if name = "help" && value.isNone then throw (.help rules.topic)
  let o ← orUsage (rules.options.find? (·.long == name))
  match value with
  | some v => if o.valued then return (← orUsage (o.set v s), none) else throw .usage
  | none => if o.valued then return (s, some o) else return (← orUsage (o.set "" s), none)

/-- Reads words.  `waiting` is an option whose value has to come next. -/
def readWords (rules : Rules σ) (waiting : Option (OptionRule σ)) (escaped : Bool) :
    List String → σ → Except Stop σ
  | [], s => if waiting.isSome then .error .usage else .ok s
  | word :: words, s =>
    match escaped, Word.ofString word with
    | false, .escape => if waiting.isSome then .error .usage else readWords rules none true words s
    | false, .long name value => do
      if waiting.isSome then throw .usage
      let (s, waiting) ← longOption rules name value s
      readWords rules waiting false words s
    | false, .short letters => do
      if waiting.isSome then throw .usage
      let (s, waiting) ← shortOptions rules letters s
      readWords rules waiting false words s
    | escaped, _ => do
      match waiting with
      | some o => readWords rules none escaped words (← orUsage (o.set word s))
      | none => readWords rules none escaped words (← orUsage (rules.value word s))

/-! ## 3. Commands -/

/-- The form of a rendered diagram. -/
inductive Format where
  | json
  | svg
deriving DecidableEq, Repr

/-- The form of a name. -/
def Format.ofName? : String → Option Format
  | "json" => some .json
  | "svg" => some .svg
  | _ => none

/-- What to render, and how. -/
structure RenderOptions where
  file : String
  language : String := "auto"
  diagram : String := "ast"
  maxDepth : Option Nat := none
  format : Format := .json
  output : Option String := none
deriving DecidableEq, Repr

/-- A command. -/
inductive Command where
  | render (options : RenderOptions)
  | serve (port : Option Nat)
  | config
deriving DecidableEq, Repr

/-- What was read of a command so far. -/
structure Draft where
  verbose : Bool := false
  file : Option String := none
  language : Option String := none
  diagram : Option String := none
  maxDepth : Option Nat := none
  format : Option Format := none
  output : Option String := none
  port : Option Nat := none

/-- A value that was not given before. -/
def once {α : Type} (seen : Option α) (value : Option α) : Option α :=
  if seen.isSome then none else value

/-- A path is not empty. -/
def path? (s : String) : Option String := if s.isEmpty then none else some s

/-- The flag that every command has. -/
def verboseRule : OptionRule Draft where
  long := "verbose"
  short := some 'v'
  meaning := "Enable debug logging"
  set := fun _ d => if d.verbose then none else some { d with verbose := true }

/-- The flags in front of a command. -/
def programRules : Rules Draft where
  topic := .program
  options := [verboseRule]
  value := fun _ _ => none

/-- The options and values of `render`. -/
def renderRules : Rules Draft where
  topic := .render
  options := [
    { long := "language", short := some 'l', placeholder := some "LANGUAGE"
      meaning := "Source language: auto, python or java [default: auto]"
      set := fun v d => (once d.language (some v)).map fun v => { d with language := some v } },
    verboseRule,
    { long := "diagram", short := some 'd', placeholder := some "DIAGRAM"
      meaning := "Diagram type: ast, cfg or ddg [default: ast]"
      set := fun v d => (once d.diagram (some v)).map fun v => { d with diagram := some v } },
    { long := "max-depth", placeholder := some "MAX_DEPTH"
      meaning := "Override the AST depth limit"
      set := fun v d => (once d.maxDepth (Number.natural? Number.countBound v)).map
        fun n => { d with maxDepth := some n } },
    { long := "format", short := some 'f', placeholder := some "FORMAT"
      meaning := "Output format [default: json] [possible values: json, svg]"
      set := fun v d => (once d.format (Format.ofName? v)).map
        fun f => { d with format := some f } },
    { long := "output", short := some 'o', placeholder := some "OUTPUT"
      meaning := "Write to a file instead of stdout"
      set := fun v d => (once d.output (path? v)).map fun p => { d with output := some p } }]
  value := fun v d => (once d.file (path? v)).map fun p => { d with file := some p }

/-- The options of `serve`. -/
def serveRules : Rules Draft where
  topic := .serve
  options := [
    { long := "port", short := some 'p', placeholder := some "PORT"
      meaning := "Port to listen on (defaults to the configured port)"
      set := fun v d => (once d.port (Number.natural? Number.portBound v)).map
        fun n => { d with port := some n } },
    verboseRule]
  value := fun _ _ => none

/-- The options of `config`. -/
def configRules : Rules Draft where
  topic := .config
  options := [verboseRule]
  value := fun _ _ => none

/-- What the words after `help` ask about. -/
def topicOf : List String → Except Stop Topic
  | [] => .ok .program
  | ["render"] => .ok .render
  | ["serve"] => .ok .serve
  | ["config"] => .ok .config
  | ["help"] => .ok .help
  | _ => .error .usage

/-- The options of a rendered diagram, if the file is named. -/
def Draft.renderOptions? (d : Draft) : Option RenderOptions := do
  return {
    file := ← d.file
    language := d.language.getD "auto"
    diagram := d.diagram.getD "ast"
    maxDepth := d.maxDepth
    format := d.format.getD .json
    output := d.output }

/-- The command of a name with the words after it. -/
def commandOf (name : String) (words : List String) : Except Stop Command :=
  match name with
  | "render" => do
    let d ← readWords renderRules none false words {}
    return .render (← orUsage d.renderOptions?)
  | "serve" => do return .serve (← readWords serveRules none false words {}).port
  | "config" => do
    discard (readWords configRules none false words {})
    return .config
  | "help" => do throw (.help (← topicOf words))
  | _ => throw .usage

/-- The command that words stand for.  Flags may stand in front of it. -/
def parseFrom (d : Draft) : List String → Except Stop Command
  | [] => .error .usage
  | word :: words =>
    match Word.ofString word with
    | .value => commandOf word words
    | .escape => .error .usage
    | .long name value => do
      let (d, _) ← longOption programRules name value d
      parseFrom d words
    | .short letters => do
      let (d, _) ← shortOptions programRules letters d
      parseFrom d words

/-- The command that words stand for. -/
def parse (words : List String) : Except Stop Command := parseFrom {} words

end CodeDiagram.CommandLine
