/-
# The program

Runs the command line on this machine.  The trees of a source file are read from the record beside
it, whose name is that of the file with `.syntax.json` after it.
-/
import CodeDiagram.CommandLine.Run
import CodeDiagram.Json.Reader
import CodeDiagram.Syntax.Recorded

namespace CodeDiagram.CommandLine

open Syntax

/-- Whether a code of this machine is a certain one: some of its calls give codes below zero. -/
def isCode (code : UInt32) (n : UInt32) : Bool := code == n || code == 0 - n

/-- The fault that an error of this machine stands for. -/
def FileFault.ofError : IO.Error → FileFault
  | .noFileOrDirectory .. => .notFound
  | .inappropriateType _ code _ => if isCode code 21 then .isDirectory else .notDirectory
  | e@(.invalidArgument _ code _) => if isCode code 36 then .nameTooLong else .other (toString e)
  | e => .other (toString e)

/-- The text of a file of this machine. -/
def readHere (path : String) : IO (Except FileFault String) := do
  try
    let bytes ← IO.FS.readBinFile path
    match String.fromUTF8? bytes with
    | some text => return .ok text
    | none => return .error .notText
  catch e => return .error (.ofError e)

/-- Writes a file of this machine. -/
def writeHere (path text : String) : IO (Except FileFault Unit) := do
  try
    IO.FS.writeFile path text
    return .ok ()
  catch e => return .error (.ofError e)

/-- Whether something is at a path of this machine. -/
def isHere (path : String) : IO Bool := do
  match ← readHere path with
  | .error .notFound => return false
  | .error .notDirectory => return false
  | .error .nameTooLong => return false
  | _ => return true

/-- The grammars for a file, from the record beside it. -/
def grammarHere (path : String) : IO (Language → Grammar) := do
  let source := (← readHere path).toOption.getD ""
  let trees := (← readHere (path ++ ".syntax.json")).toOption.getD ""
  let grammar := Grammar.ofJson source ((Json.parse trees).toOption.getD .null)
  return fun _ => grammar

/-- This machine. -/
def here : Host IO where
  read := readHere
  write := writeHere
  isThere := isHere
  value? := fun name => IO.getEnv name
  grammar := grammarHere
  serve settings := return .error ("Cannot listen on " ++ settings.server.host ++ ":" ++
    toString settings.server.port)

end CodeDiagram.CommandLine

open CodeDiagram.CommandLine in
/-- The program. -/
def main (words : List String) : IO UInt32 := do
  let outcome ← run here words
  IO.print outcome.stdout
  if let some line := outcome.stderr then IO.eprintln line
  return UInt32.ofNat outcome.exit
