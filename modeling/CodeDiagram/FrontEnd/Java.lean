/-
# The Java front end

Which grammar kinds of Java stand for which kinds of nodes, what is declared and imported, and how
names are bound and read.  Members without a class around them are read once more inside a wrapper
class, whose own line is not counted.
-/
import CodeDiagram.FrontEnd.Basic

namespace CodeDiagram.Java

open Syntax

/-! ## 1. Reading a text -/

/-- What is put in front of members that stand alone. -/
def wrapperHead : String := "class __Snippet__ \x7b\n"

/-- What is put behind members that stand alone. -/
def wrapperTail : String := "\n\x7d\n"

/-- Members that stand alone, inside a class. -/
def wrap (text : String) : String := wrapperHead ++ text ++ wrapperTail

/-- Reads the text, and after a fault the same text inside a wrapper class.  If both have a fault
the first is told. -/
def parse (grammar : Grammar) (source : String) : Except SyntaxError Document :=
  let text := Text.normalize source
  match grammar.read text with
  | .ok tree => .ok { language := .java, text, tree }
  | .error e =>
    match grammar.read (wrap text) with
    | .ok tree =>
      .ok { language := .java, text := wrap text, tree, lineOffset := 1, wrapped := true }
    | .error _ => .error e

/-! ## 2. Kinds and names -/

/-- The kind of node that a grammar kind stands for. -/
def classify : String → NodeKind
  | "program" => .fileRoot
  | "class_declaration" | "record_declaration" => .classDecl
  | "interface_declaration" | "annotation_type_declaration" => .interfaceDecl
  | "enum_declaration" => .enumDecl
  | "method_declaration" | "constructor_declaration"
  | "compact_constructor_declaration" => .function
  | "method_invocation" | "object_creation_expression" => .call
  | "identifier" => .identifier
  | "import_declaration" => .importDecl
  | "variable_declarator" => .variableDecl
  | "formal_parameter" | "catch_formal_parameter" => .parameter
  | "assignment_expression" => .assignment
  | "decimal_integer_literal" | "hex_integer_literal" | "octal_integer_literal"
  | "binary_integer_literal" | "decimal_floating_point_literal" | "hex_floating_point_literal"
  | "string_literal" | "text_block" | "character_literal" | "true" | "false"
  | "null_literal" => .literal
  | "return_statement" => .returnStatement
  | "if_statement" | "switch_expression" | "ternary_expression" | "try_statement"
  | "catch_clause" => .branch
  | "for_statement" | "enhanced_for_statement" | "while_statement" | "do_statement" => .loop
  | "block" | "class_body" | "interface_body" | "enum_body" | "constructor_body" => .block
  | _ => .other

/-- The last part of a dotted type name, without type arguments. -/
def simpleTypeName (text : String) : String :=
  let base := Text.trim (text.toList.takeWhile (· != '<'))
  String.ofList (base.reverse.takeWhile (· != '.')).reverse

/-- The name of what is called: a method, or the type that is created. -/
def calleeName (d : Document) (n : Node) : Option String :=
  match n.kind with
  | "method_invocation" => d.fieldText? n "name"
  | "object_creation_expression" => (d.fieldText? n "type").map simpleTypeName
  | _ => none

/-- The name of a parameter; that of a variable number of arguments stands in a declarator. -/
def parameterName? (d : Document) (n : Node) : Option String :=
  match n.kind with
  | "formal_parameter" => d.fieldText? n "name"
  | "spread_parameter" => (n.childOfKind? "variable_declarator").bind (d.fieldText? · "name")
  | _ => none

/-- The parameters of a method. -/
def parameters (d : Document) (n : Node) : List String :=
  match n.field? "parameters" with
  | none => []
  | some list => list.namedChildren.filterMap (parameterName? d)

/-! ## 3. Declarations -/

/-- The modifiers and annotations of a declaration. -/
def modifiers (d : Document) (n : Node) : List String :=
  match n.childOfKind? "modifiers" with
  | none => []
  | some list => (list.children.filterMap d.textOf?).map Text.trimmed

/-- The types of a list of types. -/
def typeListNames (d : Document) (n : Node) : List String :=
  match n.childOfKind? "type_list" with
  | none => []
  | some list => list.namedChildren.filterMap d.textOf?

/-- What is known of a method; a constructor has no return type. -/
def methodInfo (d : Document) (n : Node) : Except ExtractionFault FunctionInfo := do
  let name ← d.declaredName n
  return {
    name
    line := d.line n
    parameters := parameters d n
    returnType := (n.field? "type").bind d.textOf?
    modifiers := modifiers d n }

/-- The superclass, if one is named. -/
def superclass (d : Document) (n : Node) : Except ExtractionFault (List Supertype) :=
  match (n.field? "superclass").bind (·.namedChildren.head?) with
  | some type => do return [⟨← d.textOf type, .extends⟩]
  | none => return []

/-- What is known of a type declaration. -/
def classInfo (d : Document) (n : Node) : Except ExtractionFault ClassInfo := do
  let name ← d.declaredName n
  let parents ← superclass d n
  let contracts := ((n.field? "interfaces").map (typeListNames d)).getD []
  let extended := ((n.childOfKind? "extends_interfaces").map (typeListNames d)).getD []
  return {
    name
    line := d.line n
    supertypes := parents ++ contracts.map (⟨·, .implements⟩) ++ extended.map (⟨·, .extends⟩) }

/-- What is known of an import. -/
def importInfo (d : Document) (n : Node) : Except ExtractionFault ImportInfo := do
  let isWildcard := n.hasChildOfKind "asterisk"
  let isPath : Node → Bool := fun c => c.kind == "scoped_identifier" || c.kind == "identifier"
  match n.namedChildren.find? isPath with
  | none => throw (.missingField n.kind "name")
  | some node =>
    let path ← d.textOf node
    return {
      path := if isWildcard then path ++ ".*" else path
      line := d.line n
      flags := { isStatic := n.hasChildOfKind "static", isWildcard } }

/-! ## 4. Data flow -/

/-- Whether a node is a field of `this`. -/
def isThisAccess (n : Node) : Bool :=
  match n.field? "object" with
  | some o => o.kind == "this"
  | none => false

/-- Whether an assignment also reads what it assigns to. -/
def isCompound (d : Document) (n : Node) : Bool :=
  match (n.field? "operator").bind d.textOf? with
  | some operator => operator != "="
  | none => false

/-- What a variable declaration binds: a field directly inside a field declaration, else a local
name. -/
def declaratorBinding (n : Node) : Binding :=
  match n.parent with
  | some up => if up.info.kind == "field_declaration" then .field else .localName
  | none => .localName

/-- The part a node plays in data flow. -/
def flowStep (d : Document) (n : Node) : FlowStep :=
  let field (name : String) : List Node := (n.field? name).toList
  match n.kind with
  | "method_declaration" | "constructor_declaration" | "compact_constructor_declaration" =>
    functionStep (d.declaredName n) (parameters d n) (n.field? "body")
  | "class_declaration" | "interface_declaration" | "enum_declaration" | "record_declaration" =>
    .walk (field "body")
  | "variable_declarator" => .bind (field "value") (field "name") (declaratorBinding n) []
  | "assignment_expression" =>
    let values := if isCompound d n then field "left" ++ field "right" else field "right"
    .bind values (field "left") .localName []
  | "enhanced_for_statement" => .bind (field "value") (field "name") .loopTarget (field "body")
  | "catch_formal_parameter" => .bind [] (field "name") .localName []
  | "identifier" => referenceStep (d.textOf n)
  | "field_access" =>
    if isThisAccess n then referenceStep (d.fieldText n "field") else .walk (field "object")
  | "method_invocation" => .walk (field "object" ++ field "arguments")
  | "lambda_expression" => .walk (field "body")
  | "import_declaration" | "package_declaration" => .skip
  | _ => .walk n.namedChildren

/-- What an assignment target binds and reads: names and fields of `this` are bound, anything else
is read. -/
def bindTargets (d : Document) (n : Node) (binding : Binding) : BindTargets :=
  if n.kind == "identifier" then
    { names := ((d.textOf? n).map (⟨·, d.line n, binding⟩)).toList }
  else if n.kind == "field_access" && isThisAccess n then
    { names := ((d.fieldText? n "field").map (⟨·, d.line n, .field⟩)).toList }
  else { reads := [n] }

/-- What a node declares by itself. -/
def declarations (d : Document) (n : Node) : Except ExtractionFault Declarations := do
  match n.kind with
  | "method_declaration" | "constructor_declaration" | "compact_constructor_declaration" =>
    return functionDeclarations (← methodInfo d n)
  | "class_declaration" | "interface_declaration" | "enum_declaration" | "record_declaration" =>
    return { classes := [← classInfo d n] }
  | "import_declaration" => return { imports := [← importInfo d n] }
  | _ => return { bindings := boundVariables bindTargets d (flowStep d n) }

/-! ## 5. The front end -/

theorem mem_children_of_mem_flowStep {d : Document} {n m : Node}
    (h : m ∈ (flowStep d n).mentions) : m ∈ n.children := by
  have hf : ∀ {name}, n.field? name = some m → m ∈ n.children :=
    fun h => Node.mem_children_of_field? h
  have hn : m ∈ n.namedChildren → m ∈ n.children := Node.mem_children_of_mem_namedChildren
  unfold flowStep functionStep referenceStep at h
  split at h <;> (try split at h) <;>
    simp only [FlowStep.mentions, List.mem_append, List.append_nil, List.nil_append,
      Option.mem_toList, List.not_mem_nil] at h <;> grind

/-- What a target leaves to be read is the target itself, and no name. -/
theorem eq_of_mem_reads {d : Document} {t m : Node} {b : Binding}
    (h : m ∈ (bindTargets d t b).reads) : m = t ∧ t.kind ≠ "identifier" := by
  unfold bindTargets at h
  split at h
  · cases h
  · rename_i hkind
    split at h
    · cases h
    · exact ⟨List.mem_singleton.mp h, fun hname => hkind (beq_iff_eq.mpr hname)⟩

theorem size_le_of_mem_reads {d : Document} {t m : Node} {b : Binding}
    (h : m ∈ (bindTargets d t b).reads) : m.size ≤ t.size :=
  Nat.le_of_eq (congrArg Node.size (eq_of_mem_reads h).1)

/-- The front end of Java. -/
def frontEnd : FrontEnd where
  language := .java
  extensions := ["java"]
  parse := parse
  classify := classify
  calleeName := calleeName
  parameters := parameters
  declarations := declarations
  flowStep := flowStep
  bindTargets := bindTargets
  size_lt_of_mem_flowStep _ _ _ h := Node.size_lt_of_mem_children (mem_children_of_mem_flowStep h)
  size_le_of_mem_reads _ _ _ _ h := size_le_of_mem_reads h

@[simp] theorem frontEnd_extensions : frontEnd.extensions = ["java"] := rfl
@[simp] theorem frontEnd_parse : frontEnd.parse = parse := rfl
@[simp] theorem frontEnd_classify : frontEnd.classify = classify := rfl
@[simp] theorem frontEnd_declarations : frontEnd.declarations = declarations := rfl
@[simp] theorem frontEnd_flowStep : frontEnd.flowStep = flowStep := rfl
@[simp] theorem frontEnd_bindTargets : frontEnd.bindTargets = bindTargets := rfl

end CodeDiagram.Java
