/-
# Source languages

The languages that diagrams are drawn of, the names they go by, and the endings of their files.
-/
import CodeDiagram.Text.Blank
import CodeDiagram.Text.Letter

namespace CodeDiagram

/-- A source language. -/
inductive Language where
  | python
  | java
deriving DecidableEq, Repr, Inhabited

/-- A request that cannot be served. -/
inductive RequestError where
  /-- No front end reads this language. -/
  | unsupportedLanguage (name : String)
  /-- There is no diagram of this name. -/
  | unknownDiagram (name : String)
deriving DecidableEq, Repr

/-- The wording of a request error. -/
def RequestError.message : RequestError → String
  | .unsupportedLanguage name => "Unsupported language: " ++ name
  | .unknownDiagram name => "Unknown diagram type: " ++ name

namespace Language

/-- Every language, in the order they are listed. -/
def all : List Language := [.python, .java]

/-- The name in requests and answers. -/
def name : Language → String
  | .python => "python"
  | .java => "java"

/-- The name people read. -/
def displayName : Language → String
  | .python => "Python"
  | .java => "Java"

/-- The language of a name, whatever its case and the blanks around it. -/
def ofName (s : String) : Except RequestError Language :=
  match Text.lowerAscii (Text.trimmed s) with
  | "python" | "py" => .ok .python
  | "java" => .ok .java
  | _ => .error (.unsupportedLanguage s)

/-- The language of a file ending, written without its dot. -/
def ofExtension (extension : String) : Option Language :=
  match Text.lowerAscii extension with
  | "py" | "pyi" => some .python
  | "java" => some .java
  | _ => none

/-- A language's place in `all`. -/
def rank : Language → Nat
  | .python => 0
  | .java => 1

end Language

end CodeDiagram
