/-
# Declarations

What a source text declares, beside the diagram of it: functions, types, variables and imports,
each with the line it is on.  `Declarations` of several nodes are put together in order.
-/
import CodeDiagram.Graph.Basic

namespace CodeDiagram

/-- A declared function. -/
structure FunctionInfo where
  name : String
  line : Nat
  parameters : List String
  returnType : Option String := none
  /-- Modifiers and decorators. -/
  modifiers : List String := []
deriving DecidableEq, Repr

/-- A type that a declared type builds on. -/
structure Supertype where
  name : String
  relation : Relation
deriving DecidableEq, Repr

/-- A declared class, interface or enumeration. -/
structure ClassInfo where
  name : String
  line : Nat
  supertypes : List Supertype
deriving DecidableEq, Repr

/-- What a name is bound as. -/
inductive Binding where
  | localName
  | field
  | parameter
  | loopTarget
deriving DecidableEq, Repr

namespace Binding

/-- Every binding, in the order they are listed. -/
def all : List Binding := [localName, field, parameter, loopTarget]

/-- The name in answers. -/
def name : Binding → String
  | localName => "local"
  | field => "field"
  | parameter => "parameter"
  | loopTarget => "loop_target"

/-- The binding of a name. -/
def ofName? (s : String) : Option Binding := all.find? (·.name == s)

end Binding

/-- A bound name. -/
structure VariableInfo where
  name : String
  line : Nat
  binding : Binding
deriving DecidableEq, Repr

/-- What sets an import apart. -/
structure ImportFlags where
  isStatic : Bool := false
  isWildcard : Bool := false
  isFrom : Bool := false
deriving DecidableEq, Repr

/-- An imported name. -/
structure ImportInfo where
  path : String
  renamedTo : Option String := none
  line : Nat
  flags : ImportFlags := {}
deriving DecidableEq, Repr

/-- Declarations in source order, by sort. -/
structure Declarations where
  functions : List FunctionInfo := []
  classes : List ClassInfo := []
  bindings : List VariableInfo := []
  imports : List ImportInfo := []
deriving DecidableEq, Repr

namespace Declarations

/-- One collection after another. -/
def append (a b : Declarations) : Declarations where
  functions := a.functions ++ b.functions
  classes := a.classes ++ b.classes
  bindings := a.bindings ++ b.bindings
  imports := a.imports ++ b.imports

instance : Append Declarations := ⟨append⟩

end Declarations

/-- All that is known of a source text beside its diagram. -/
structure Metadata extends Declarations where
  /-- The wording of the error, if the text could not be read. -/
  parseError : Option String := none
  /-- The number of nodes of the outline. -/
  totalNodes : Nat := 0
  /-- Whether something lies below the depth limit. -/
  maxDepthReached : Bool := false
deriving DecidableEq, Repr

/-- The first function of a name and line. -/
def Metadata.functionAt? (m : Metadata) (name : String) (line : Nat) : Option FunctionInfo :=
  m.functions.find? fun f => f.name == name && f.line == line

/-- A note that a node's label or declarations could not be had. -/
structure Diagnostic where
  node : NodeId
  line : Option Nat
  message : String
deriving DecidableEq, Repr

end CodeDiagram
