/-
# The registry of front ends

Which front end reads a language, and which language a file ending stands for.  Endings are kept in
lower case.  A later front end takes the place of an earlier one of the same language.
-/
import CodeDiagram.FrontEnd.Java
import CodeDiagram.FrontEnd.Python
import CodeDiagram.Text.Path

namespace CodeDiagram

/-- The front end of a language. -/
def Language.frontEnd : Language → FrontEnd
  | .python => Python.frontEnd
  | .java => Java.frontEnd

@[simp] theorem Language.frontEnd_python : Language.python.frontEnd = Python.frontEnd := rfl
@[simp] theorem Language.frontEnd_java : Language.java.frontEnd = Java.frontEnd := rfl

/-- Front ends by language, and languages by ending. -/
structure Registry where
  frontEnds : List (Language × FrontEnd) := []
  extensions : List (String × Language) := []

namespace Registry

/-- Puts an entry into a table in place of one with the same key. -/
def put {α β : Type} [BEq α] (key : α) (value : β) (table : List (α × β)) : List (α × β) :=
  (key, value) :: table.filter (·.1 != key)

/-- A registry without front ends. -/
def empty : Registry := {}

/-- Adds a front end for its language and its endings. -/
def register (r : Registry) (fe : FrontEnd) : Registry where
  frontEnds := put fe.language fe r.frontEnds
  extensions := fe.extensions.foldl (fun t e => put (Text.lower e) fe.language t) r.extensions

/-- The registry of all front ends there are. -/
def builtIn : Registry := Language.all.foldl (fun r l => r.register l.frontEnd) empty

/-- The front end of a language. -/
def find (r : Registry) (language : Language) : Except RequestError FrontEnd :=
  match r.frontEnds.lookup language with
  | some fe => .ok fe
  | none => .error (.unsupportedLanguage language.name)

/-- The front end for files of an ending. -/
def findByExtension? (r : Registry) (extension : String) : Option FrontEnd :=
  (r.extensions.lookup (Text.lower extension)).bind (r.frontEnds.lookup ·)

/-- The front end for the file at a path. -/
def findByPath? (r : Registry) (path : String) : Option FrontEnd :=
  (Text.extension? path).bind r.findByExtension?

/-- Whether files of an ending can be read. -/
def canParse (r : Registry) (extension : String) : Bool :=
  (r.extensions.lookup (Text.lower extension)).isSome

/-- The endings of the files that can be read, sorted. -/
def supportedExtensions (r : Registry) : List String :=
  (r.extensions.map (·.1)).mergeSort fun a b => !(b < a)

/-- Every language with the endings that its front end declares, in the order of languages. -/
def listed (r : Registry) : List (Language × List String) :=
  Language.all.filterMap fun l => (r.frontEnds.lookup l).map fun fe => (l, fe.extensions)

end Registry

end CodeDiagram
