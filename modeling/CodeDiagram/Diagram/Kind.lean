/-
# Kinds of diagrams

The diagrams that can be asked for, their names and their titles.
-/
import CodeDiagram.Language.Basic

namespace CodeDiagram

/-- A diagram that can be asked for. -/
inductive DiagramKind where
  | outline
  | callGraph
  | dataFlow
deriving DecidableEq, Repr, Inhabited

namespace DiagramKind

/-- Every diagram, in the order they are listed. -/
def all : List DiagramKind := [outline, callGraph, dataFlow]

/-- The name in requests and answers. -/
def name : DiagramKind → String
  | outline => "ast"
  | callGraph => "cfg"
  | dataFlow => "ddg"

/-- The title above the drawing. -/
def title : DiagramKind → String
  | outline => "Abstract Syntax Tree (AST)"
  | callGraph => "Control Flow Graph (CFG)"
  | dataFlow => "Data Dependency Graph (DDG)"

/-- Whether the graph of a text that can be read is a tree. -/
def isTree (k : DiagramKind) : Bool := k == outline

/-- The diagram of a name, whatever its case and the blanks around it. -/
def ofName (s : String) : Except RequestError DiagramKind :=
  match all.find? (·.name == Text.lowerAscii (Text.trimmed s)) with
  | some k => .ok k
  | none => .error (.unknownDiagram s)

end DiagramKind

end CodeDiagram
