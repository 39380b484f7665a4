/-
# Records in JSON

A record with a fixed list of fields is an object with a member for each field, or an array with an
item for each field.  Members that are not fields mean nothing.  In an object a field may be left
out where there is something to stand in for it; in an array only the last fields may.
-/
import CodeDiagram.Json.Basic

namespace CodeDiagram.Json

/-! ## 1. Single values -/

/-- A string. -/
def asString? : Json → Option String
  | .str s => some s
  | _ => none

/-- A truth value. -/
def asBool? : Json → Option Bool
  | .bool b => some b
  | _ => none

/-- A whole number below a bound, not negative. -/
def asNat? (bound : Nat) : Json → Option Nat
  | .int (.ofNat n) => if n < bound then some n else none
  | _ => none

/-- A number, whole or not. -/
def asFloat? : Json → Option Float
  | .int n => some (Float.ofInt n)
  | .float x => some x
  | _ => none

/-- The items of an array, each read in one way. -/
def asList? {α : Type} (read : Json → Option α) : Json → Option (List α)
  | .arr items => items.mapM read
  | _ => none

/-- A word out of a fixed list: a string, or an object with the word as its only key and nothing
under it. -/
def asWord? {α : Type} (ofName? : String → Option α) : Json → Option α
  | .str s => ofName? s
  | .obj [(s, .null)] => ofName? s
  | _ => none

/-- A value, or `null` for none. -/
def asOption? {α : Type} (read : Json → Option α) : Json → Option (Option α)
  | .null => some none
  | v => (read v).map some

/-! ## 2. Records -/

/-- A value that is read as a record. -/
inductive Record where
  | named (members : List (String × Json))
  | listed (items : List Json)

/-- A value as a record of `size` fields.  Items beyond the last field are refused unless
`spare` allows them. -/
def record? (size : Nat) (spare : Bool) : Json → Option Record
  | .obj members => some (.named members)
  | .arr items => if spare || items.length ≤ size then some (.listed items) else none
  | _ => none

namespace Record

/-- The value of a field, by its key or by its place. -/
def find? : Record → Nat → String → Option Json
  | .named members, _, key => (Json.obj members).get? key
  | .listed items, place, _ => items[place]?

variable {α : Type}

/-- A field that has to be there. -/
def required (r : Record) (place : Nat) (key : String) (read : Json → Option α) : Option α :=
  (r.find? place key).bind read

/-- A field that is not there or `null` if it has no value. -/
def optional (r : Record) (place : Nat) (key : String) (read : Json → Option α) :
    Option (Option α) :=
  match r, r.find? place key with
  | .named _, none => some none
  | .listed _, none => none
  | _, some v => asOption? read v

/-- A field with a value to stand in for it. -/
def defaulted (r : Record) (place : Nat) (key : String) (fallback : α) (read : Json → Option α) :
    Option α :=
  match r.find? place key with
  | none => some fallback
  | some v => read v

end Record

end CodeDiagram.Json
