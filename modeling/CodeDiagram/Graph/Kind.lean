/-
# Kinds of nodes

Every node of a diagram is of one of a closed set of kinds.  The kind says how the node gets its
label and how it is drawn.
-/

namespace CodeDiagram

/-- How a node gets its label. -/
inductive LabelRule where
  /-- The grammar kind itself. -/
  | typeTag
  /-- The first line of the node's text. -/
  | nodeText
  /-- The name of what is called. -/
  | callee
  /-- The name of what is declared. -/
  | declaredName
  /-- What is imported, without keyword and terminator. -/
  | importPath
deriving DecidableEq, Repr

/-- How a node is drawn. -/
structure NodeStyle where
  /-- A colour in hexadecimal. -/
  color : String
  /-- The diameter of its dot. -/
  size : Nat
deriving DecidableEq, Repr

/-- The kinds: those up to `other` come from source text, the rest are made for a diagram. -/
inductive NodeKind where
  | fileRoot
  | function
  | classDecl
  | interfaceDecl
  | enumDecl
  | call
  | identifier
  | importDecl
  | variableDecl
  | parameter
  | assignment
  | literal
  | returnStatement
  | branch
  | loop
  | block
  | other
  | entry
  | exit
  | globalCaller
  | field
  | useSite
  | message
deriving DecidableEq, Repr, Inhabited

namespace NodeKind

/-- Every kind, in the order they are listed. -/
def all : List NodeKind :=
  [fileRoot, function, classDecl, interfaceDecl, enumDecl, call, identifier, importDecl,
   variableDecl, parameter, assignment, literal, returnStatement, branch, loop, block, other,
   entry, exit, globalCaller, field, useSite, message]

/-- The name in answers. -/
def name : NodeKind → String
  | fileRoot => "module"
  | function => "function"
  | classDecl => "class"
  | interfaceDecl => "interface"
  | enumDecl => "enum"
  | call => "call"
  | identifier => "identifier"
  | importDecl => "import"
  | variableDecl => "variable"
  | parameter => "parameter"
  | assignment => "assignment"
  | literal => "literal"
  | returnStatement => "return"
  | branch => "branch"
  | loop => "loop"
  | block => "block"
  | other => "other"
  | entry => "entry"
  | exit => "exit"
  | globalCaller => "program"
  | field => "field"
  | useSite => "use"
  | message => "message"

/-- The kind of a name. -/
def ofName? (s : String) : Option NodeKind := all.find? (·.name == s)

/-- How nodes of a kind get their label. -/
def labelRule : NodeKind → LabelRule
  | function | classDecl | interfaceDecl | enumDecl | variableDecl | parameter => .declaredName
  | call => .callee
  | identifier | literal => .nodeText
  | importDecl => .importPath
  | _ => .typeTag

/-- How nodes of a kind are drawn. -/
def style : NodeKind → NodeStyle
  | fileRoot => ⟨"#6e7781", 14⟩
  | function => ⟨"#FF6347", 20⟩
  | classDecl => ⟨"#4682B4", 25⟩
  | interfaceDecl => ⟨"#9a6700", 22⟩
  | enumDecl => ⟨"#cf222e", 22⟩
  | call => ⟨"#0969da", 12⟩
  | identifier => ⟨"#D3D3D3", 8⟩
  | importDecl => ⟨"#32CD32", 15⟩
  | variableDecl => ⟨"#8A2BE2", 15⟩
  | parameter => ⟨"#ff7f0e", 12⟩
  | assignment => ⟨"#D3D3D3", 10⟩
  | literal => ⟨"#D3D3D3", 8⟩
  | returnStatement => ⟨"#D3D3D3", 10⟩
  | branch => ⟨"#D3D3D3", 10⟩
  | loop => ⟨"#D3D3D3", 10⟩
  | block => ⟨"#D3D3D3", 8⟩
  | other => ⟨"#D3D3D3", 10⟩
  | entry => ⟨"#2ca02c", 15⟩
  | exit => ⟨"#d62728", 15⟩
  | globalCaller => ⟨"#1f77b4", 20⟩
  | field => ⟨"#2ca02c", 15⟩
  | useSite => ⟨"#8ac926", 10⟩
  | message => ⟨"#d62728", 20⟩

/-- Whether nodes of a kind declare something that can be called. -/
def isFunction (k : NodeKind) : Bool := k == function

/-- Whether nodes of a kind declare a type. -/
def isType : NodeKind → Bool
  | classDecl | interfaceDecl | enumDecl => true
  | _ => false

/-- `all` leaves no kind out. -/
theorem mem_all (k : NodeKind) : k ∈ all := by cases k <;> decide

end NodeKind

/-- The drawing hints that go with a diagram. -/
abbrev StyleTable := List (NodeKind × NodeStyle)

/-- The style of every kind. -/
def fullStyleTable : StyleTable := NodeKind.all.map fun k => (k, k.style)

end CodeDiagram
