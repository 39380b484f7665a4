/-
# The body of a request

A request for a diagram is a JSON object with the text and, perhaps, the language, the diagram and
a depth limit; or an array of these in this order.  Members of other names mean nothing.  A body is
read from left to right up to the first fault.
-/
import CodeDiagram.Json.Reader

namespace CodeDiagram.Service

open Json

/-- What a body asks for. -/
structure Body where
  code : String
  language : Option String := none
  diagram : Option String := none
  maxDepth : Option Nat := none
deriving DecidableEq, Repr

namespace Body

/-! ## 1. Fields -/

/-- A value of a kind that is not expected; it may be malformed too. -/
def unexpected {α : Type} : Reader α := fun cs =>
  let cs := skipSpace cs
  let whole : Reader Unit := fun cs =>
    match cs with
    | '[' :: _ => .error .mismatch
    | '\x7b' :: _ => .error .mismatch
    | '"' :: rest => (stringTail rest).map fun (_, rest) => ((), rest)
    | 't' :: rest => word "rue" rest
    | 'f' :: rest => word "alse" rest
    | 'n' :: rest => word "ull" rest
    | cs => (number cs).map fun (_, rest) => ((), rest)
  match whole cs with
  | .ok _ => .error .mismatch
  | .error e => .error e

/-- A string. -/
def text : Reader String := fun cs =>
  match skipSpace cs with
  | '"' :: rest => stringTail rest
  | cs => unexpected cs

/-- A count. -/
def count : Reader Nat := fun cs =>
  let cs := skipSpace cs
  if cs.head?.any fun c => c == '-' || Number.isDigit c then
    match number cs with
    | .ok (.int (.ofNat n), rest) => .ok (n, rest)
    | .ok _ => .error .mismatch
    | .error e => .error e
  else unexpected cs

/-- A value, or `null` for none. -/
def optional {α : Type} (read : Reader α) : Reader (Option α) := fun cs =>
  match skipSpace cs with
  | 'n' :: rest => (word "ull" rest).map fun (_, rest) => (none, rest)
  | cs => (read cs).map fun (v, rest) => (some v, rest)

/-! ## 2. Objects -/

/-- What was read of an object so far. -/
structure Draft where
  code : Option String := none
  language : Option (Option String) := none
  diagram : Option (Option String) := none
  maxDepth : Option (Option Nat) := none

/-- The body of a draft, if nothing that has to be there is missing. -/
def Draft.finish (d : Draft) : Except ReadFault Body :=
  match d.code with
  | none => .error .mismatch
  | some code =>
    .ok {
      code
      language := d.language.join
      diagram := d.diagram.join
      maxDepth := d.maxDepth.join }

/-- What follows the colon after a key. -/
def afterColon {α : Type} (read : Reader α) : Reader α := fun cs =>
  match skipSpace cs with
  | ':' :: rest => read rest
  | _ => .error .malformed

/-- A field that must not have been read before. -/
def fresh {α : Type} (seen : Option α) (read : Reader α) : Reader α := fun cs =>
  if seen.isSome then .error .mismatch else afterColon read cs

/-- The value of a key. -/
def field (d : Draft) (key : String) : Reader Draft := fun cs =>
  match key with
  | "code" => (fresh d.code text cs).map fun (v, rest) => ({ d with code := some v }, rest)
  | "language" =>
    (fresh d.language (optional text) cs).map fun (v, rest) => ({ d with language := some v }, rest)
  | "diagram_type" =>
    (fresh d.diagram (optional text) cs).map fun (v, rest) => ({ d with diagram := some v }, rest)
  | "max_depth" =>
    (fresh d.maxDepth (optional count) cs).map fun (v, rest) =>
      ({ d with maxDepth := some v }, rest)
  | _ => (afterColon ignored cs).map fun (_, rest) => (d, rest)

/-- The members of an object up to its brace. -/
def membersWithin (d : Draft) : Nat → Reader Draft
  | 0, _ => .error .malformed
  | turns + 1, cs => do
    match skipSpace cs with
    | '"' :: rest =>
      let (key, rest) ← stringTail rest
      let (d, rest) ← field d key rest
      match skipSpace rest with
      | '\x7d' :: rest => return (d, rest)
      | ',' :: rest => membersWithin d turns rest
      | _ => .error .malformed
    | _ => .error .malformed

/-- An object after its brace. -/
def objectTail : Reader Body := fun cs => do
  let (d, rest) ←
    match skipSpace cs with
    | '\x7d' :: rest => pure (({} : Draft), rest)
    | rest => membersWithin {} (rest.length + 1) rest
  return (← d.finish, rest)

/-! ## 3. Arrays -/

/-- A further item of an array, with `fallback` at the end of the array. -/
def item {α : Type} (fallback : α) (read : Reader α) : Reader α := fun cs =>
  match skipSpace cs with
  | ']' :: _ => .ok (fallback, cs)
  | ',' :: rest => if (skipSpace rest).head? == some ']' then .error .malformed else read rest
  | _ => .error .malformed

/-- An array after its bracket. -/
def arrayTail : Reader Body := fun cs => do
  if (skipSpace cs).head? == some ']' then .error .mismatch
  let (code, rest) ← text cs
  let (language, rest) ← item none (optional text) rest
  let (diagram, rest) ← item none (optional text) rest
  let (maxDepth, rest) ← item none (optional count) rest
  match skipSpace rest with
  | ']' :: rest => return ({ code, language, diagram, maxDepth }, rest)
  | _ => .error .malformed

/-! ## 4. Bodies -/

/-- Reads a body. -/
def parse (s : String) : Except ReadFault Body := do
  let (body, rest) ←
    match skipSpace s.toList with
    | '\x7b' :: rest => objectTail rest
    | '[' :: rest => arrayTail rest
    | cs => unexpected cs
  if (skipSpace rest).isEmpty then return body else .error .malformed

end Body

end CodeDiagram.Service
