/-
# Reading TOML

A TOML text is lines of pairs, perhaps below headers.  Arrays may run over several lines, inline
tables may not.
-/
import CodeDiagram.Toml.Table

namespace CodeDiagram.Toml

open Entries (Pair Section)

/-! ## 1. Values -/

/-- Items of an array up to its bracket, with a comma after each but perhaps the last. -/
def itemsWithin (value : Reader Entry) : Nat → Reader (List Entry)
  | 0, _ => none
  | turns + 1, cs =>
    match skipGap false cs with
    | ']' :: rest => some ([], rest)
    | cs => do
      let (v, rest) ← value cs
      match skipGap false rest with
      | ',' :: rest =>
        let (vs, rest) ← itemsWithin value turns rest
        return (v :: vs, rest)
      | ']' :: rest => return ([v], rest)
      | _ => none

/-- A key and what stands under it. -/
def pair (value : Reader Entry) : Reader Pair := fun cs => do
  let (keys, rest) ← dottedKey cs
  match rest with
  | '=' :: rest =>
    let (entry, rest) ← value (skipBlank rest)
    return (⟨keys, entry⟩, rest)
  | _ => none

/-- Pairs of an inline table up to its brace, with commas between them. -/
def pairsWithin (value : Reader Entry) : Nat → Reader (List Pair)
  | 0, _ => none
  | turns + 1, cs => do
    let (p, rest) ← pair value cs
    match skipBlank rest with
    | ',' :: rest =>
      let (ps, rest) ← pairsWithin value turns rest
      return (p :: ps, rest)
    | '\x7d' :: rest => return ([p], rest)
    | _ => none

/-- An array after its bracket. -/
def arrayTail (value : Reader Entry) : Reader Entry := fun cs =>
  (itemsWithin value (cs.length + 1) cs).map fun (vs, rest) => (.array vs, rest)

/-- An inline table after its brace. -/
def inlineTail (value : Reader Entry) : Reader Entry := fun cs =>
  match skipBlank cs with
  | '\x7d' :: rest => some (.inline [], rest)
  | cs => do
    let (ps, rest) ← pairsWithin value (cs.length + 1) cs
    return (.inline (← Entries.assignAll [] ps), rest)

/-- A value with so many levels of values in it. -/
def valueWithin : Nat → Reader Entry
  | 0, cs => (scalar cs).map fun (v, rest) => (.scalar v, rest)
  | depth + 1, cs =>
    match cs with
    | '[' :: rest => arrayTail (valueWithin depth) rest
    | '\x7b' :: rest => inlineTail (valueWithin depth) rest
    | cs => (scalar cs).map fun (v, rest) => (.scalar v, rest)

/-- A value. -/
def value : Reader Entry := valueWithin deepest

/-! ## 2. Lines -/

/-- What a line can hold. -/
inductive Line where
  | blank
  | pair (p : Pair)
  | header (keys : List String) (repeated : Bool)

/-- A header after its first bracket. -/
def headerTail : Reader Line
  | '[' :: rest => do
    let (keys, rest) ← dottedKey rest
    match rest with
    | ']' :: ']' :: rest => return (.header keys true, rest)
    | _ => none
  | cs => do
    let (keys, rest) ← dottedKey cs
    match rest with
    | ']' :: rest => return (.header keys false, rest)
    | _ => none

/-- What a line holds, up to the blanks and the comment at its end. -/
def lineHead (cs : List Char) : Option (Line × List Char) :=
  match skipBlank cs with
  | '[' :: rest => headerTail rest
  | [] => some (.blank, [])
  | '#' :: rest => some (.blank, '#' :: rest)
  | '\n' :: rest => some (.blank, '\n' :: rest)
  | '\r' :: rest => some (.blank, '\r' :: rest)
  | cs => (pair value cs).map fun (p, rest) => (.pair p, rest)

/-- The lines of a text; it has no more lines than turns. -/
def linesWithin : Nat → List Char → Option (List Line)
  | 0, _ => some []
  | turns + 1, cs => do
    if cs.isEmpty then return []
    let (line, rest) ← lineHead cs
    return line :: (← linesWithin turns (← afterLine? rest))

/-! ## 3. Texts -/

/-- Lines put together: pairs in front of the first header, and sections. -/
def sections : List Line → List Pair × List Section
  | [] => ([], [])
  | .blank :: rest => sections rest
  | .pair p :: rest =>
    let (ps, ss) := sections rest
    (p :: ps, ss)
  | .header keys repeated :: rest =>
    let (ps, ss) := sections rest
    ([], ⟨keys, repeated, ps⟩ :: ss)

/-- The text without a byte order mark at its start. -/
def dropMark : List Char → List Char
  | '\uFEFF' :: rest => rest
  | cs => cs

/-- The table that a text stands for. -/
def parse (s : String) : Option Entries := do
  let cs := dropMark s.toList
  let (pairs, sections) := sections (← linesWithin (cs.length + 1) cs)
  Entries.ofSections? pairs sections

end CodeDiagram.Toml
