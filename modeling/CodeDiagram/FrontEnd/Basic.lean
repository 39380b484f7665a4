/-
# Front ends

A front end knows one language: how its texts are read, what its grammar kinds stand for, what is
declared where, and how names are bound and read.  Everything after it is the same for every
language and asks a front end only.

`FrontEnd` carries two laws: a step of data flow speaks only of smaller nodes, and what an
assignment target leaves to be read is no larger than the target.  They are why the walk that
follows data flow ends.
-/
import CodeDiagram.Graph.Metadata
import CodeDiagram.Syntax.FirstFault

namespace CodeDiagram

open Syntax

/-! ## 1. Data flow at one node -/

/-- The part a node plays in binding and reading names. -/
inductive FlowStep where
  /-- First `values` are evaluated, then `targets` are bound, then `next` is evaluated. -/
  | bind (values targets : List Node) (binding : Binding) (next : List Node)
  /-- Parameters are bound, then `body` is evaluated. -/
  | function (name : String) (parameters : List String) (body : List Node)
  /-- A name is read. -/
  | reference (name : String)
  /-- Only the nodes below matter. -/
  | walk (children : List Node)
  /-- Nothing here binds or reads. -/
  | skip

/-- The nodes a step speaks of. -/
def FlowStep.mentions : FlowStep → List Node
  | .bind values targets _ next => values ++ targets ++ next
  | .function _ _ body => body
  | .reference _ => []
  | .walk children => children
  | .skip => []

/-- A name bound by an assignment target. -/
structure BoundName where
  name : String
  line : Nat
  binding : Binding
deriving DecidableEq, Repr

/-- An assignment target taken apart: what it binds, and what it only reads. -/
structure BindTargets where
  names : List BoundName := []
  reads : List Node := []

/-! ## 2. The front end of a language -/

/-- All that depends on a language. -/
structure FrontEnd where
  language : Language
  /-- File endings, without their dot. -/
  extensions : List String
  /-- Reads a text, perhaps in a relaxed second attempt. -/
  parse : Grammar → String → Except SyntaxError Document
  /-- The kind of node that a grammar kind stands for. -/
  classify : String → NodeKind
  /-- The name of what a call calls. -/
  calleeName : Document → Node → Option String
  /-- The names of a function's parameters. -/
  parameters : Document → Node → List String
  /-- What a node declares by itself. -/
  declarations : Document → Node → Except ExtractionFault Declarations
  /-- The part a node plays in data flow. -/
  flowStep : Document → Node → FlowStep
  /-- What an assignment target binds and reads. -/
  bindTargets : Document → Node → Binding → BindTargets
  size_lt_of_mem_flowStep : ∀ d n m, m ∈ (flowStep d n).mentions → m.size < n.size
  size_le_of_mem_reads : ∀ d t b m, m ∈ (bindTargets d t b).reads → m.size ≤ t.size

/-- Whether a front end reads files of an ending, whatever its case. -/
def FrontEnd.canParse (fe : FrontEnd) (extension : String) : Bool :=
  fe.extensions.any (Text.sameAscii · extension)

/-! ## 3. Shared rules -/

/-- The variables that a step binds, as declarations. -/
def boundVariables (bindTargets : Document → Node → Binding → BindTargets) (d : Document) :
    FlowStep → List VariableInfo
  | .bind _ targets binding _ =>
    (targets.flatMap fun t => (bindTargets d t binding).names).map fun b =>
      ⟨b.name, b.line, b.binding⟩
  | _ => []

/-- The parameters of a function as variables, on the line of the function. -/
def parameterVariables (f : FunctionInfo) : List VariableInfo :=
  f.parameters.map fun p => ⟨p, f.line, .parameter⟩

/-- What a function declaration contributes. -/
def functionDeclarations (f : FunctionInfo) : Declarations :=
  { functions := [f], bindings := parameterVariables f }

/-- The function that a step speaks of, with `skip` for one without a name. -/
def functionStep (name : Except ExtractionFault String) (parameters : List String)
    (body : Option Node) : FlowStep :=
  match name with
  | .ok name => .function name parameters body.toList
  | .error _ => .skip

/-- The step that reads a text, with `skip` for one that is not there. -/
def referenceStep (text : Except ExtractionFault String) : FlowStep :=
  match text with
  | .ok name => .reference name
  | .error _ => .skip

end CodeDiagram
