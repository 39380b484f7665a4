/-
# TOML tables as values

What is read from a table depends on its keys and values only, not on how it came to be.
-/
import CodeDiagram.Json.Basic
import CodeDiagram.Toml.Table

namespace CodeDiagram.Toml

/-- A scalar as a value.  A point in time is nothing that anything asks for: it stands for a record
without fields. -/
def Scalar.toJson : Scalar → Json
  | .str s => .str s
  | .int n => .int n
  | .float x => .float x
  | .bool b => .bool b
  | .moment => .obj []

mutual

/-- An entry as a value. -/
def Entry.toJson : Entry → Json
  | .scalar v => v.toJson
  | .array items => .arr (itemsToJson items)
  | .inline es => .obj (entriesToJson es)
  | .table _ es => .obj (entriesToJson es)
  | .tables all => .arr (tablesToJson all)

/-- Items as values. -/
def itemsToJson : List Entry → List Json
  | [] => []
  | e :: es => e.toJson :: itemsToJson es

/-- Entries as members. -/
def entriesToJson : List (String × Entry) → List (String × Json)
  | [] => []
  | (key, e) :: es => (key, e.toJson) :: entriesToJson es

/-- Tables as values. -/
def tablesToJson : List (List (String × Entry)) → List Json
  | [] => []
  | es :: all => .obj (entriesToJson es) :: tablesToJson all

end

/-- A table as a value. -/
def Entries.toJson (es : Entries) : Json := .obj (entriesToJson es)

end CodeDiagram.Toml
