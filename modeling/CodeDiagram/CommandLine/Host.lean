/-
# The host

What the command line asks of the place it runs in: files, named values, and the trees that a
grammar answers for the text of a file.  The rules of the commands are the same for every host.
-/
import CodeDiagram.Diagram.Pipeline

namespace CodeDiagram.CommandLine

open Syntax

/-- Why a file cannot be read or written. -/
inductive FileFault where
  | notFound
  | isDirectory
  | notDirectory
  /-- A name on the way, or the whole path, is longer than the host allows. -/
  | nameTooLong
  /-- The file does not hold text. -/
  | notText
  | other (message : String)
deriving DecidableEq, Repr

/-- The wording of a file's fault. -/
def FileFault.message : FileFault → String
  | .notFound => "No such file or directory (os error 2)"
  | .isDirectory => "Is a directory (os error 21)"
  | .notDirectory => "Not a directory (os error 20)"
  | .nameTooLong => "File name too long (os error 36)"
  | .notText => "stream did not contain valid UTF-8"
  | .other message => message

/-- What a host can do. -/
structure Host (m : Type → Type) where
  /-- The text of a file. -/
  read : String → m (Except FileFault String)
  /-- Makes a text the content of a file. -/
  write : String → String → m (Except FileFault Unit)
  /-- Whether something is at a path. -/
  isThere : String → m Bool
  /-- The value of a name. -/
  value? : String → m (Option String)
  /-- The grammars for the text of a file. -/
  grammar : String → m (Language → Grammar)
  /-- Serves requests until it is stopped. -/
  serve : Settings → m (Except String Unit)

end CodeDiagram.CommandLine
