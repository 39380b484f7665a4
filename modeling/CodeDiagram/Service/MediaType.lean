/-
# Media types

Tells whether the declared media type of a request is JSON: `application/json`, or an application
type with `json` as its suffix, in any case, perhaps with parameters.
-/
import CodeDiagram.Number.Natural
import CodeDiagram.Text.Letter

namespace CodeDiagram.Service.MediaType

/-! ## 1. Parameters -/

/-- Whether a character may stand in a name or in a value without quotes. -/
def isToken (c : Char) : Bool :=
  ('a' ≤ c && c ≤ 'z') || ('A' ≤ c && c ≤ 'Z') || Number.isDigit c ||
    "!#$%&'*+-.^_\x60|~".toList.contains c

/-- Whether a character may stand in a value between quotes. -/
def isQuotable (c : Char) : Bool := 0x20 ≤ c.toNat && c.toNat ≠ 0x7F

/-- Where in a parameter a reader is. -/
inductive Place where
  /-- In front of a name. -/
  | start
  | inName
  /-- After the equals sign. -/
  | beforeValue
  | inValue
  /-- After the opening quote. -/
  | quoteOpen
  | inQuotes
  | afterQuotes
deriving DecidableEq

/-- Reads one character of the parameters. -/
def Place.step (place : Place) (c : Char) : Option Place :=
  match place with
  | .start => if c == ' ' then some .start else if isToken c then some .inName else none
  | .inName => if c == '=' then some .beforeValue else if isToken c then some .inName else none
  | .beforeValue =>
    if c == '"' then some .quoteOpen else if isToken c then some .inValue else none
  | .inValue => if c == ';' then some .start else if isToken c then some .inValue else none
  | .quoteOpen => if isQuotable c then some .inQuotes else none
  | .inQuotes =>
    if c == '"' then some .afterQuotes else if isQuotable c then some .inQuotes else none
  | .afterQuotes => if c == ';' then some .start else if c == ' ' then some .afterQuotes else none

/-- Whether parameters may end here. -/
def Place.isEnd : Place → Bool
  | .start => true
  | .beforeValue => true
  | .inValue => true
  | .afterQuotes => true
  | _ => false

/-- Whether a text is parameters, the first semicolon aside. -/
def areParameters (cs : List Char) : Bool := (cs.foldlM Place.step .start).any (·.isEnd)

/-! ## 2. Types -/

/-- A subtype cut at its last plus sign that has something in front; what follows the sign is the
suffix. -/
def cutSuffix (cs : List Char) : List Char × Option (List Char) :=
  let suffix := (cs.reverse.takeWhile (· != '+')).reverse
  let base := cs.take (cs.length - suffix.length - 1)
  if base.isEmpty then (cs, none) else (base, some suffix)

/-- Whether a subtype is that of JSON. -/
def isJsonSubtype (cs : List Char) : Bool :=
  let json := "json".toList
  let (base, suffix) := cutSuffix cs
  base == json || suffix == some json

/-- Whether a declared media type is JSON. -/
def isJson (declared : String) : Bool :=
  let cs := declared.toList
  let type := cs.takeWhile isToken
  match cs.dropWhile isToken with
  | '/' :: rest =>
    let subtype := rest.takeWhile isToken
    let wellFormed :=
      match rest.dropWhile isToken with
      | [] => true
      | ';' :: parameters => !subtype.isEmpty && areParameters parameters
      | _ => false
    wellFormed && cs.all (·.toNat < 0x7F) &&
      Text.lowerAscii (String.ofList type) == "application" &&
      isJsonSubtype (Text.lowerAscii (String.ofList subtype)).toList
  | _ => false

end CodeDiagram.Service.MediaType
