/-
# TOML tables

Tables are put together from key and value pairs and from sections.  How a table came to be decides
what may still be added to it: pairs go only into the table of their section and into tables that
dotted keys make, and a header may open a table only once.
-/
import CodeDiagram.Toml.Scalar

namespace CodeDiagram.Toml

/-! ## 1. Values and tables -/

/-- How a table came to be. -/
inductive Origin where
  /-- By a header of its own. -/
  | header
  /-- By the header of a table below it. -/
  | implied
  /-- By a dotted key. -/
  | dotted
deriving DecidableEq, Repr

/-- What stands under a key. -/
inductive Entry where
  | scalar (v : Scalar)
  | array (items : List Entry)
  /-- A table that is complete as it stands between its braces. -/
  | inline (entries : List (String × Entry))
  | table (origin : Origin) (entries : List (String × Entry))
  /-- The tables of a header that may be repeated. -/
  | tables (all : List (List (String × Entry)))

/-- The entries of a table. -/
abbrev Entries := List (String × Entry)

namespace Entries

/-- Puts an entry under a key, in place of one that is there. -/
def put (key : String) (e : Entry) : Entries → Entries
  | [] => [(key, e)]
  | (k, old) :: rest => if k = key then (key, e) :: rest else (k, old) :: put key e rest

/-! ## 2. Pairs -/

/-- Puts an entry under a dotted key; `keys` are the parts after the first. -/
def assign (e : Entry) (key : String) (keys : List String) (es : Entries) : Option Entries :=
  match keys with
  | [] => if (es.lookup key).isSome then none else some (es.put key e)
  | next :: keys =>
    match es.lookup key with
    | none => (assign e next keys []).map fun below => es.put key (.table .dotted below)
    | some (.table .dotted below) =>
      (assign e next keys below).map fun below => es.put key (.table .dotted below)
    | some (.table .implied below) =>
      if keys.isEmpty then none
      else (assign e next keys below).map fun below => es.put key (.table .implied below)
    | some (.tables all) =>
      if keys.isEmpty then none
      else do
        let below ← assign e next keys (← all.getLast?)
        return es.put key (.tables (all.dropLast ++ [below]))
    | some _ => none

/-- A key with its parts, and what stands under it. -/
structure Pair where
  keys : List String
  entry : Entry

/-- Puts a pair into a table. -/
def assignPair (es : Entries) (p : Pair) : Option Entries :=
  match p.keys with
  | [] => none
  | key :: keys => es.assign p.entry key keys

/-- Puts pairs into a table, one after the other. -/
def assignAll (es : Entries) (ps : List Pair) : Option Entries := ps.foldlM assignPair es

/-! ## 3. Sections -/

/-- A header and the pairs below it. -/
structure Section where
  keys : List String
  /-- The header may be repeated, for a table more each time. -/
  repeated : Bool
  pairs : List Pair

/-- What the pairs of a section make of what stands under the last part of its header. -/
def opened (s : Section) : Option Entry → Option Entry
  | none =>
    (assignAll [] s.pairs).map fun es => if s.repeated then .tables [es] else .table .header es
  | some (.table .implied es) =>
    if s.repeated then none else (assignAll es s.pairs).map (.table .header)
  | some (.tables all) =>
    if s.repeated then (assignAll [] s.pairs).map fun es => .tables (all ++ [es]) else none
  | some _ => none

/-- Puts a section into a table, below the keys that its header starts with. -/
def openAt (s : Section) : List String → Entries → Option Entries
  | [], _ => none
  | [key], es => (opened s (es.lookup key)).map fun e => es.put key e
  | key :: keys, es =>
    match es.lookup key with
    | none => (openAt s keys []).map fun below => es.put key (.table .implied below)
    | some (.table origin below) =>
      (openAt s keys below).map fun below => es.put key (.table origin below)
    | some (.tables all) => do
      let below ← openAt s keys (← all.getLast?)
      return es.put key (.tables (all.dropLast ++ [below]))
    | some _ => none

/-- The table of pairs without a header and of the sections after them. -/
def ofSections? (pairs : List Pair) (sections : List Section) : Option Entries := do
  sections.foldlM (fun es s => openAt s s.keys es) (← assignAll [] pairs)

end Entries

end CodeDiagram.Toml
