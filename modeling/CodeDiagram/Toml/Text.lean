/-
# The small parts of TOML

Blanks, comments and line ends; strings of the four sorts; and keys.  A reader takes its part off
the front of a text and gives it with the rest, or fails.
-/
import CodeDiagram.Number.Natural

namespace CodeDiagram.Toml

/-- Takes a part off the front of a text. -/
abbrev Reader (α : Type) := List Char → Option (α × List Char)

/-! ## 1. Blanks, comments and line ends -/

/-- Whether a character separates parts of a line. -/
def isBlank (c : Char) : Bool := c == ' ' || c == '\t'

/-- The text without blanks at its start. -/
def skipBlank (cs : List Char) : List Char := cs.dropWhile isBlank

/-- Whether a character may stand on a line at all: controls other than the tab may not. -/
def isPlain (c : Char) : Bool := c == '\t' || (0x20 ≤ c.toNat && c.toNat ≠ 0x7F)

/-- The text without a comment at its start. -/
def skipComment : List Char → List Char
  | '#' :: rest => rest.dropWhile isPlain
  | cs => cs

/-- The text after a line break. -/
def afterBreak? : List Char → Option (List Char)
  | '\n' :: rest => some rest
  | '\r' :: '\n' :: rest => some rest
  | _ => none

/-- The text after the blanks and the comment that may end a line. -/
def afterLine? (cs : List Char) : Option (List Char) :=
  match skipComment (skipBlank cs) with
  | [] => some []
  | rest => afterBreak? rest

/-- The text without blanks, line breaks and comments at its start.  With `inComment`, the text
starts inside a comment. -/
def skipGap (inComment : Bool) : List Char → List Char
  | [] => []
  | '\n' :: rest => skipGap false rest
  | '\r' :: '\n' :: rest => skipGap false rest
  | c :: rest =>
    if inComment && isPlain c then skipGap true rest
    else if isBlank c then skipGap false rest
    else if c == '#' then skipGap true rest
    else c :: rest

/-! ## 2. Escapes -/

/-- The character whose number has these hexadecimal digits. -/
def coded? (digits : List Char) : Option Char := do
  let n ← Number.hexNumber? digits
  if n.isValidChar then some (Char.ofNat n) else none

/-- The character that stands for another one behind a backslash. -/
def escaped? : Char → Option Char
  | '"' => some '"'
  | '\\' => some '\\'
  | 'b' => some '\x08'
  | 'f' => some '\x0c'
  | 'n' => some '\n'
  | 'r' => some '\r'
  | 't' => some '\t'
  | _ => none

/-! ## 3. Strings -/

/-- A character in front of what a reader took. -/
def put (c : Char) (found : Option (List Char × List Char)) : Option (List Char × List Char) :=
  found.map fun (text, rest) => (c :: text, rest)

/-- A string on one line with escapes, after its opening quote. -/
def basicTail : Reader (List Char)
  | [] => none
  | '"' :: rest => some ([], rest)
  | '\\' :: 'u' :: a :: b :: c :: d :: rest => do put (← coded? [a, b, c, d]) (basicTail rest)
  | '\\' :: 'U' :: a :: b :: c :: d :: e :: f :: g :: h :: rest => do
    put (← coded? [a, b, c, d, e, f, g, h]) (basicTail rest)
  | '\\' :: c :: rest => do put (← escaped? c) (basicTail rest)
  | c :: rest => if isPlain c then put c (basicTail rest) else none

/-- A string on one line without escapes, after its opening quote. -/
def literalTail : Reader (List Char)
  | [] => none
  | '\'' :: rest => some ([], rest)
  | c :: rest => if isPlain c then put c (literalTail rest) else none

/-- Whether a line ends here but for blanks. -/
def endsLine (cs : List Char) : Bool := (afterBreak? (skipBlank cs)).isSome

/-- A string on several lines with escapes, after its opening quotes.  Of a run of quotes at the
end, up to two belong to the string.  A backslash at the end of a line takes away the break and what
is blank after it; with `folding`, the text starts there. -/
def multilineTail (folding : Bool) : Reader (List Char)
  | [] => none
  | '"' :: '"' :: '"' :: '"' :: '"' :: rest => some (['"', '"'], rest)
  | '"' :: '"' :: '"' :: '"' :: rest => some (['"'], rest)
  | '"' :: '"' :: '"' :: rest => some ([], rest)
  | '\r' :: '\n' :: rest =>
    if folding then multilineTail true rest else put '\n' (multilineTail false rest)
  | '\n' :: rest =>
    if folding then multilineTail true rest else put '\n' (multilineTail false rest)
  | '\\' :: 'u' :: a :: b :: c :: d :: rest => do
    put (← coded? [a, b, c, d]) (multilineTail false rest)
  | '\\' :: 'U' :: a :: b :: c :: d :: e :: f :: g :: h :: rest => do
    put (← coded? [a, b, c, d, e, f, g, h]) (multilineTail false rest)
  | '\\' :: c :: rest =>
    if endsLine (c :: rest) then multilineTail true (c :: rest)
    else do put (← escaped? c) (multilineTail false rest)
  | c :: rest =>
    if folding && isBlank c then multilineTail true rest
    else if isPlain c then put c (multilineTail false rest)
    else none

/-- A string on several lines without escapes, after its opening quotes. -/
def multilineLiteralTail : Reader (List Char)
  | [] => none
  | '\'' :: '\'' :: '\'' :: '\'' :: '\'' :: rest => some (['\'', '\''], rest)
  | '\'' :: '\'' :: '\'' :: '\'' :: rest => some (['\''], rest)
  | '\'' :: '\'' :: '\'' :: rest => some ([], rest)
  | '\r' :: '\n' :: rest => put '\n' (multilineLiteralTail rest)
  | '\n' :: rest => put '\n' (multilineLiteralTail rest)
  | c :: rest => if isPlain c then put c (multilineLiteralTail rest) else none

/-- The text without a line break at its start. -/
def dropBreak (cs : List Char) : List Char := (afterBreak? cs).getD cs

/-- A string of any sort. -/
def string : Reader (List Char)
  | '"' :: '"' :: '"' :: rest => multilineTail false (dropBreak rest)
  | '"' :: rest => basicTail rest
  | '\'' :: '\'' :: '\'' :: rest => multilineLiteralTail (dropBreak rest)
  | '\'' :: rest => literalTail rest
  | _ => none

/-! ## 4. Keys -/

/-- Whether a character may stand in a key without quotes. -/
def isBare (c : Char) : Bool :=
  ('a' ≤ c && c ≤ 'z') || ('A' ≤ c && c ≤ 'Z') || Number.isDigit c || c == '-' || c == '_'

/-- One key. -/
def simpleKey : Reader String
  | '"' :: rest => (basicTail rest).map fun (text, rest) => (String.ofList text, rest)
  | '\'' :: rest => (literalTail rest).map fun (text, rest) => (String.ofList text, rest)
  | cs =>
    let text := cs.takeWhile isBare
    if text.isEmpty then none else some (String.ofList text, cs.dropWhile isBare)

/-- A number of keys, at most, with points between them and blanks around. -/
def dottedKeyWithin : Nat → Reader (List String)
  | 0, _ => none
  | turns + 1, cs => do
    let (key, rest) ← simpleKey (skipBlank cs)
    match skipBlank rest with
    | '.' :: rest =>
      let (keys, rest) ← dottedKeyWithin turns rest
      return (key :: keys, rest)
    | rest => return ([key], rest)

/-- How deep keys and values may nest. -/
def deepest : Nat := 79

/-- A key, perhaps of several parts. -/
def dottedKey : Reader (List String) := dottedKeyWithin deepest

end CodeDiagram.Toml
