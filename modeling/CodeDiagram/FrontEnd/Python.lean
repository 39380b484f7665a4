/-
# The Python front end

Which grammar kinds of Python stand for which kinds of nodes, what is declared and imported, and
how names are bound and read.  A text that cannot be read as it stands is read once more with the
indentation taken off that all of its lines share.
-/
import CodeDiagram.FrontEnd.Basic

namespace CodeDiagram.Python

open Syntax

/-! ## 1. Reading a text -/

/-- Reads the text, and after a fault the same text moved to the left margin.  If both have a fault
the first is told. -/
def parse (grammar : Grammar) (source : String) : Except SyntaxError Document :=
  let text := Text.normalize source
  match grammar.read text with
  | .ok tree => .ok { language := .python, text, tree }
  | .error e =>
    let moved := Text.dedent text
    if moved = text then .error e
    else
      match grammar.read moved with
      | .ok tree => .ok { language := .python, text := moved, tree }
      | .error _ => .error e

/-! ## 2. Kinds and names -/

/-- The kind of node that a grammar kind stands for. -/
def classify : String → NodeKind
  | "module" => .fileRoot
  | "function_definition" => .function
  | "class_definition" => .classDecl
  | "call" => .call
  | "identifier" => .identifier
  | "import_statement" | "import_from_statement" | "future_import_statement" => .importDecl
  | "assignment" | "augmented_assignment" => .assignment
  | "string" | "concatenated_string" | "integer" | "float" | "true" | "false" | "none" => .literal
  | "return_statement" => .returnStatement
  | "if_statement" | "elif_clause" | "else_clause" | "conditional_expression"
  | "match_statement" | "try_statement" | "except_clause" => .branch
  | "for_statement" | "while_statement" => .loop
  | "block" => .block
  | _ => .other

/-- The name of what is called: a plain name, or the last part of a dotted one. -/
def calleeName (d : Document) (n : Node) : Option String := do
  let callee ← n.field? "function"
  match callee.kind with
  | "identifier" => d.textOf? callee
  | "attribute" => d.fieldText? callee "attribute"
  | _ => none

/-- The name of a parameter, looked for inside annotations and stars.  Each step goes down to a
first named child. -/
def parameterName? (d : Document) (n : Node) : Option String :=
  match n.kind with
  | "identifier" => d.textOf? n
  | "default_parameter" | "typed_default_parameter" => d.fieldText? n "name"
  | "typed_parameter" | "list_splat_pattern" | "dictionary_splat_pattern" =>
    match h : n.namedChildren with
    | inner :: _ =>
      have : inner.size < n.size :=
        Node.size_lt_of_mem_children (Node.mem_children_of_mem_namedChildren (by simp [h]))
      parameterName? d inner
    | [] => none
  | _ => none
termination_by n.size

/-- The parameters of a function, without the receiver of a method. -/
def parameters (d : Document) (n : Node) : List String :=
  match n.field? "parameters" with
  | none => []
  | some list =>
    (list.namedChildren.filterMap (parameterName? d)).filter fun p => p != "self" && p != "cls"

/-! ## 3. Declarations -/

/-- Decorators of the definition that a function stands in, and `async`. -/
def modifiers (d : Document) (n : Node) : List String :=
  let decorators : List String :=
    match n.parent with
    | some up =>
      if up.info.kind == "decorated_definition" then
        (((⟨up, none⟩ : Node).children.filter (·.kind == "decorator")).filterMap
          d.textOf?).map Text.trimmed
      else []
    | none => []
  decorators ++ if n.hasChildOfKind "async" then ["async"] else []

/-- What is known of a function definition. -/
def functionInfo (d : Document) (n : Node) : Except ExtractionFault FunctionInfo := do
  let name ← d.declaredName n
  return {
    name
    line := d.line n
    parameters := parameters d n
    returnType := (n.field? "return_type").bind d.textOf?
    modifiers := modifiers d n }

/-- What is known of a class definition: its bases are names, keyword arguments are not. -/
def classInfo (d : Document) (n : Node) : Except ExtractionFault ClassInfo := do
  let name ← d.declaredName n
  let bases := ((n.field? "superclasses").map (·.namedChildren)).getD []
  let names := (bases.filter fun c => c.kind == "identifier" || c.kind == "attribute").filterMap
    d.textOf?
  return { name, line := d.line n, supertypes := names.map (⟨·, .extends⟩) }

/-- An imported name and what it is renamed to. -/
def importName (d : Document) (n : Node) : Except ExtractionFault (String × Option String) := do
  if n.kind == "aliased_import" then
    return (← d.fieldText n "name", d.fieldText? n "alias")
  else
    return (← d.textOf n, none)

/-- A name inside a module; the dots of a relative module need no further dot. -/
def joinModule (base name : String) : String :=
  if base.endsWith "." then base ++ name else base ++ "." ++ name

/-- The names that `import a, b as c` imports. -/
def plainImports (d : Document) (n : Node) : Except ExtractionFault (List ImportInfo) :=
  (n.fields "name").mapM fun c => do
    let (path, renamedTo) ← importName d c
    return { path, renamedTo, line := d.line n }

/-- The names that `from m import a, b as c` or `from m import *` imports. -/
def fromImports (d : Document) (n : Node) : Except ExtractionFault (List ImportInfo) := do
  let base ← d.fieldText n "module_name"
  let everything : List ImportInfo :=
    if n.hasChildOfKind "wildcard_import" then
      [{ path := joinModule base "*", line := d.line n,
         flags := { isWildcard := true, isFrom := true } }]
    else []
  let names ← (n.fields "name").mapM fun c => do
    let (path, renamedTo) ← importName d c
    return ({ path := joinModule base path, renamedTo, line := d.line n,
              flags := { isFrom := true } } : ImportInfo)
  return everything ++ names

/-! ## 4. Data flow -/

/-- Whether a node is an attribute of `self`. -/
def isSelfAttribute (d : Document) (n : Node) : Bool :=
  match n.field? "object" with
  | some o => o.kind == "identifier" && d.textOf? o == some "self"
  | none => false

/-- `except E as e:` where the name stands beside the exception: what is before `as` is evaluated,
the first named node after it is bound. -/
def exceptStep (n : Node) : FlowStep :=
  let isAs : Node → Bool := fun c => c.kind == "as"
  if n.children.any isAs then
    let before := (n.children.takeWhile (!isAs ·)).filter (·.isNamed)
    let after := ((n.children.dropWhile (!isAs ·)).drop 1).filter (·.isNamed)
    .bind before (after.take 1) .localName (after.drop 1)
  else .walk n.namedChildren

/-- The clauses of a comprehension, and then the expression that they feed. -/
def comprehensionStep (n : Node) : FlowStep :=
  match n.field? "body" with
  | some body => .walk (n.namedChildren.filter (·.id != body.id) ++ [body])
  | none => .walk n.namedChildren

/-- The part a node plays in data flow. -/
def flowStep (d : Document) (n : Node) : FlowStep :=
  let field (name : String) : List Node := (n.field? name).toList
  match n.kind with
  | "function_definition" => functionStep (d.declaredName n) (parameters d n) (n.field? "body")
  | "class_definition" => .walk (field "superclasses" ++ field "body")
  | "assignment" => .bind (field "right") (field "left") .localName []
  | "augmented_assignment" => .bind (field "left" ++ field "right") (field "left") .localName []
  | "for_statement" =>
    .bind (field "right") (field "left") .loopTarget (field "body" ++ field "alternative")
  | "list_comprehension" | "set_comprehension" | "dictionary_comprehension"
  | "generator_expression" => comprehensionStep n
  | "for_in_clause" => .bind (n.fields "right") (field "left") .loopTarget []
  | "as_pattern" => .bind (n.namedChildren.take 1) (field "alias") .localName []
  | "except_clause" => exceptStep n
  | "named_expression" => .bind (field "value") (field "name") .localName []
  | "identifier" => referenceStep (d.textOf n)
  | "attribute" =>
    if isSelfAttribute d n then referenceStep (d.textOf n) else .walk (field "object")
  | "keyword_argument" => .walk (field "value")
  | "lambda" => .walk (field "body")
  | "import_statement" | "import_from_statement" | "future_import_statement" | "global_statement"
  | "nonlocal_statement" => .skip
  | _ => .walk n.namedChildren

/-- Whether a target of this kind stands for the targets inside it. -/
def isContainer (kind : String) : Bool :=
  ["pattern_list", "tuple_pattern", "list_pattern", "tuple", "list", "expression_list",
   "list_splat_pattern", "parenthesized_expression", "as_pattern_target"].contains kind

/-- The targets at the ends of nested containers, in source order. -/
def frontier (n : Node) : List Node :=
  if isContainer n.kind then
    n.namedChildren.attach.flatMap fun ⟨c, h⟩ =>
      have : c.size < n.size :=
        Node.size_lt_of_mem_children (Node.mem_children_of_mem_namedChildren h)
      frontier c
  else [n]
termination_by n.size

/-- What one target at the end of the containers binds or reads: names and attributes of `self` are
bound, anything else is read. -/
def bindOne (d : Document) (binding : Binding) (n : Node) : BindTargets :=
  if n.kind == "identifier" then
    { names := ((d.textOf? n).map (⟨·, d.line n, binding⟩)).toList }
  else if n.kind == "attribute" && isSelfAttribute d n then
    { names := ((d.textOf? n).map (⟨·, d.line n, .field⟩)).toList }
  else { reads := [n] }

/-- What an assignment target binds and reads. -/
def bindTargets (d : Document) (target : Node) (binding : Binding) : BindTargets :=
  let ends := (frontier target).map (bindOne d binding)
  { names := ends.flatMap (·.names), reads := ends.flatMap (·.reads) }

/-- What a node declares by itself. -/
def declarations (d : Document) (n : Node) : Except ExtractionFault Declarations := do
  match n.kind with
  | "function_definition" => return functionDeclarations (← functionInfo d n)
  | "class_definition" => return { classes := [← classInfo d n] }
  | "import_statement" => return { imports := ← plainImports d n }
  | "import_from_statement" => return { imports := ← fromImports d n }
  | _ => return { bindings := boundVariables bindTargets d (flowStep d n) }

/-! ## 5. The front end -/

theorem mem_children_of_mem_exceptStep {n m : Node} (h : m ∈ (exceptStep n).mentions) :
    m ∈ n.children := by
  unfold exceptStep at h
  dsimp only at h
  split at h
  · simp only [FlowStep.mentions, List.mem_append] at h
    rcases h with (h | h) | h
    · exact (List.takeWhile_sublist _).mem (List.mem_filter.mp h).1
    · exact (List.dropWhile_sublist _).mem
        (List.mem_of_mem_drop (List.mem_filter.mp (List.mem_of_mem_take h)).1)
    · exact (List.dropWhile_sublist _).mem
        (List.mem_of_mem_drop (List.mem_filter.mp (List.mem_of_mem_drop h)).1)
  · exact Node.mem_children_of_mem_namedChildren h

theorem mem_children_of_mem_comprehensionStep {n m : Node}
    (h : m ∈ (comprehensionStep n).mentions) : m ∈ n.children := by
  unfold comprehensionStep at h
  split at h
  · rename_i body hb
    simp only [FlowStep.mentions, List.mem_append, List.mem_filter, List.mem_singleton] at h
    rcases h with ⟨h, -⟩ | rfl
    · exact Node.mem_children_of_mem_namedChildren h
    · exact Node.mem_children_of_field? hb
  · exact Node.mem_children_of_mem_namedChildren h

theorem mem_children_of_mem_flowStep {d : Document} {n m : Node}
    (h : m ∈ (flowStep d n).mentions) : m ∈ n.children := by
  have hf : ∀ {name}, n.field? name = some m → m ∈ n.children :=
    fun h => Node.mem_children_of_field? h
  have hs : ∀ {name}, m ∈ n.fields name → m ∈ n.children :=
    fun h => Node.mem_children_of_mem_fields h
  have hn : m ∈ n.namedChildren → m ∈ n.children := Node.mem_children_of_mem_namedChildren
  have he := @mem_children_of_mem_exceptStep n m
  have hc := @mem_children_of_mem_comprehensionStep n m
  have ht : m ∈ n.namedChildren.take 1 → m ∈ n.children :=
    fun h => hn (List.mem_of_mem_take h)
  unfold flowStep functionStep referenceStep at h
  split at h <;> (try split at h) <;> first
    | exact hc h
    | exact he h
    | simp only [FlowStep.mentions, List.mem_append, List.append_nil, Option.mem_toList,
        List.not_mem_nil] at h <;> grind

/-- What stands at the ends of the containers is no larger than the whole. -/
theorem size_le_of_mem_frontier {n m : Node} (h : m ∈ frontier n) : m.size ≤ n.size := by
  induction n using frontier.induct with
  | case1 n hk ih =>
    rw [frontier, if_pos hk] at h
    obtain ⟨⟨c, hc⟩, -, hm⟩ := List.mem_flatMap.mp h
    have hlt := Node.size_lt_of_mem_children (Node.mem_children_of_mem_namedChildren hc)
    have := ih c hc hm
    omega
  | case2 n hk =>
    rw [frontier, if_neg hk] at h
    simp at h
    simp [h]

theorem size_le_of_mem_reads {d : Document} {t m : Node} {b : Binding}
    (h : m ∈ (bindTargets d t b).reads) : m.size ≤ t.size := by
  simp only [bindTargets, List.mem_flatMap, List.mem_map] at h
  obtain ⟨_, ⟨e, he, rfl⟩, hm⟩ := h
  unfold bindOne at hm
  split at hm
  · simp at hm
  · split at hm
    · simp at hm
    · simp at hm
      exact hm ▸ size_le_of_mem_frontier he

/-- The front end of Python. -/
def frontEnd : FrontEnd where
  language := .python
  extensions := ["py", "pyi"]
  parse := parse
  classify := classify
  calleeName := calleeName
  parameters := parameters
  declarations := declarations
  flowStep := flowStep
  bindTargets := bindTargets
  size_lt_of_mem_flowStep _ _ _ h := Node.size_lt_of_mem_children (mem_children_of_mem_flowStep h)
  size_le_of_mem_reads _ _ _ _ h := size_le_of_mem_reads h

@[simp] theorem frontEnd_extensions : frontEnd.extensions = ["py", "pyi"] := rfl
@[simp] theorem frontEnd_parse : frontEnd.parse = parse := rfl
@[simp] theorem frontEnd_classify : frontEnd.classify = classify := rfl
@[simp] theorem frontEnd_declarations : frontEnd.declarations = declarations := rfl
@[simp] theorem frontEnd_flowStep : frontEnd.flowStep = flowStep := rfl
@[simp] theorem frontEnd_bindTargets : frontEnd.bindTargets = bindTargets := rfl

end CodeDiagram.Python
