/-
# Telling languages apart

A text is given to the language more of whose typical constructs occur in it; a draw goes to Python.
-/
import CodeDiagram.Language.Basic
import CodeDiagram.Text.Pattern

namespace CodeDiagram.Language

open Text

/-! ## 1. Typical constructs -/

namespace Construct

/-- Any number of blanks. -/
def gap : Pattern := .any .blank

/-- At least one blank. -/
def space : Pattern := .some .blank

/-- A word. -/
def word : Pattern := .some .word

/-- Parentheses around anything but a closing one. -/
def parenthesised : Pattern :=
  .inOrder [.text "(", .any (.except ')'), .text ")"]

end Construct

open Construct in
/-- Constructs that are typical of a Python text. -/
def pythonConstructs : List Pattern :=
  [.inOrder [.text "def", space, word, gap, parenthesised, gap, .text ":"],
   .inOrder [.text "import", space, .some (.either .word (.either .blank (.exactly ',')))],
   .inOrder [.text "class", space, word, .maybe (.inOrder [gap, parenthesised]), gap, .text ":"],
   .inOrder [.text "print", gap, parenthesised]]

open Construct in
/-- Constructs that are typical of a Java text.  The first two access modifiers count on their own,
the third only in front of what looks like a method. -/
def javaConstructs : List Pattern :=
  [.inOrder [.text "public", space, .text "class", space, word],
   .alt (.text "private") (.alt (.text "protected")
     (.inOrder [.text "public", space, word, space, word, gap, parenthesised])),
   .inOrder [.text "import", space, .some (.either .word (.exactly '.')), .text ";"],
   .text "System.out.println"]

/-! ## 2. The verdict -/

/-- How many of the constructs occur in a text. -/
def score (constructs : List Pattern) (cs : List Char) : Nat :=
  constructs.countP (·.occursIn cs)

/-- The language a text is most likely written in. -/
def detect (source : String) : Language :=
  let cs := source.toList
  if score pythonConstructs cs ≥ score javaConstructs cs then .python else .java

/-- The language of a name, or the likely language of the text when the name is `auto`. -/
def resolve (source name : String) : Except RequestError Language :=
  if sameAscii (trimmed name) "auto" then .ok (detect source) else ofName name

end CodeDiagram.Language
