/-
# A host in memory

Files are texts under the names that lead to them, and a directory is there as soon as a file lies
in it.  On this host a command is a function of the files and the named values.
-/
import CodeDiagram.CommandLine.Host

namespace CodeDiagram.CommandLine

open Syntax

/-- The names that lead from the root to a file or a directory. -/
abbrev Way := List String

/-- Files and named values. -/
structure Memory where
  /-- The directory that paths start from unless they start at the root. -/
  directory : Way
  files : List (Way × String)
  values : List (String × String)
  grammar : Language → Grammar

namespace Memory

/-! ## 1. Paths -/

/-- The text at the end of a way. -/
def file? (m : Memory) (way : Way) : Option String := m.files.lookup way

/-- Whether a way ends at a file. -/
def isFile (m : Memory) (way : Way) : Bool := (m.file? way).isSome

/-- Whether a way ends at a directory. -/
def isDirectory (m : Memory) (way : Way) : Bool :=
  !m.isFile way &&
    (way.isPrefixOf m.directory || m.files.any fun (file, _) => way.isPrefixOf file)

/-- Where one name leads from a directory. -/
def step (way : Way) (name : String) : Way :=
  if name = "" || name = "." then way
  else if name = ".." then way.dropLast
  else way ++ [name]

/-- The most bytes of a name. -/
def nameLimit : Nat := 255

/-- The most bytes of a path. -/
def pathLimit : Nat := 4095

/-- Follows names, each from a directory. -/
def walk (m : Memory) : Way → List String → Except FileFault Way
  | way, [] => .ok way
  | way, name :: names =>
    if m.isFile way then .error .notDirectory
    else if !m.isDirectory way then .error .notFound
    else if name.utf8ByteSize > nameLimit then .error .nameTooLong
    else walk m (step way name) names

/-- The names of a path; an empty one stands before and after each slash that has no other there. -/
def namesOf (path : String) : List String := (path.toList.splitOn '/').map String.ofList

/-- The way that a path starts from. -/
def start (m : Memory) (path : String) : Way :=
  if path.toList.head? == some '/' then [] else m.directory

/-- Follows the names of a path from where it starts.  An empty path leads nowhere. -/
def follow (m : Memory) (path : String) (names : List String) : Except FileFault Way :=
  if path.isEmpty then .error .notFound
  else if path.utf8ByteSize > pathLimit then .error .nameTooLong
  else m.walk (m.start path) names

/-- Where a path leads. -/
def locate (m : Memory) (path : String) : Except FileFault Way := m.follow path (namesOf path)

/-- Whether a name leads into a directory: not to the directory itself, nor to the one above. -/
def isEntry (name : String) : Bool := name != "" && name != "." && name != ".."

/-- Where a text is to be written.  A path with a slash behind its last name means a directory,
even if nothing is there yet. -/
def target (m : Memory) (path : String) : Except FileFault Way := do
  let names := namesOf path
  match names.reverse.dropWhile (· == "") with
  | last :: before =>
    if names.getLast? == some "" && isEntry last then
      let _ ← m.follow path (before.reverse ++ [""])
      throw .isDirectory
    else m.follow path names
  | [] => m.follow path names

/-! ## 2. Files -/

/-- The text of a file. -/
def read (m : Memory) (path : String) : Except FileFault String := do
  let way ← m.locate path
  match m.file? way with
  | some text => return text
  | none => throw (if m.isDirectory way then .isDirectory else .notFound)

/-- The memory after a file was written. -/
def write (m : Memory) (path text : String) : Except FileFault Memory := do
  let way ← m.target path
  if m.isDirectory way then throw .isDirectory
  return { m with files := (way, text) :: m.files.filter (·.1 != way) }

/-- Whether something is at a path. -/
def isThere (m : Memory) (path : String) : Bool :=
  match m.locate path with
  | .ok way => m.isFile way || m.isDirectory way
  | .error _ => false

/-- The host that a memory is.  It does not serve. -/
def host : Host (StateM Memory) where
  read path := do return (← get).read path
  write path text := do
    match (← get).write path text with
    | .error f => return .error f
    | .ok m => set m; return .ok ()
  isThere path := do return (← get).isThere path
  value? name := do return (← get).values.lookup name
  grammar _ := do return (← get).grammar
  serve _ := return .error "There is nothing to serve with"

end Memory

end CodeDiagram.CommandLine
