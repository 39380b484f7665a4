/-
# Patterns

Regular patterns over classes of characters, and whether one occurs anywhere in a text.

* `Pattern.Matches` says which texts a pattern describes.
* `Pattern.steps` are its partial derivatives: what may be left to match after one character.
* `Pattern.occursIn` runs all of them side by side, so a text is read once, from left to right.
-/
import CodeDiagram.Text.Blank
import CodeDiagram.Text.Word

namespace CodeDiagram.Text

/-! ## 1. Classes of characters -/

/-- The classes a pattern is built from. -/
inductive CharClass where
  | exactly (c : Char)
  | except (c : Char)
  | blank
  | word
  | either (a b : CharClass)
deriving DecidableEq, Repr

/-- Whether a character is of a class. -/
def CharClass.holds : CharClass → Char → Bool
  | .exactly d, c => c == d
  | .except d, c => c != d
  | .blank, c => isBlank c
  | .word, c => isWord c
  | .either a b, c => a.holds c || b.holds c

/-! ## 2. Patterns and the texts they describe -/

/-- A regular pattern. -/
inductive Pattern where
  | nothing
  | one (k : CharClass)
  | seq (a b : Pattern)
  | alt (a b : Pattern)
  | many (a : Pattern)
deriving DecidableEq, Repr

namespace Pattern

/-- `p.Matches cs`: the whole of `cs` is described by `p`. -/
inductive Matches : Pattern → List Char → Prop where
  | nothing : Matches .nothing []
  | one {k c} (h : k.holds c = true) : Matches (.one k) [c]
  | seq {a b xs ys} (ha : Matches a xs) (hb : Matches b ys) : Matches (.seq a b) (xs ++ ys)
  | left {a b xs} (h : Matches a xs) : Matches (.alt a b) xs
  | right {a b xs} (h : Matches b xs) : Matches (.alt a b) xs
  | stop {a} : Matches (.many a) []
  | more {a xs ys} (h : Matches a xs) (hs : Matches (.many a) ys) : Matches (.many a) (xs ++ ys)

/-- One or more of a class. -/
def some (k : CharClass) : Pattern := .seq (.one k) (.many (.one k))

/-- Any number of a class. -/
def any (k : CharClass) : Pattern := .many (.one k)

/-- A pattern or nothing. -/
def maybe (a : Pattern) : Pattern := .alt .nothing a

/-- Exactly this text. -/
def text (s : String) : Pattern := s.toList.foldr (fun c p => .seq (.one (.exactly c)) p) .nothing

/-- Patterns one after the other. -/
def inOrder (ps : List Pattern) : Pattern := ps.foldr .seq .nothing

/-! ## 3. Reading one character -/

/-- Whether the empty text is described. -/
def nullable : Pattern → Bool
  | .nothing => true
  | .one _ => false
  | .seq a b => a.nullable && b.nullable
  | .alt a b => a.nullable || b.nullable
  | .many _ => true

/-- `seq`, without a needless empty first part. -/
def andThen : Pattern → Pattern → Pattern
  | .nothing, b => b
  | a, b => .seq a b

/-- What may be left of a pattern after it has read `c`. -/
def steps (c : Char) : Pattern → List Pattern
  | .nothing => []
  | .one k => if k.holds c then [.nothing] else []
  | .seq a b => (a.steps c).map (·.andThen b) ++ if a.nullable then b.steps c else []
  | .alt a b => a.steps c ++ b.steps c
  | .many a => (a.steps c).map (·.andThen (.many a))

/-! ## 4. Searching -/

/-- The patterns in progress after one more character; a fresh search starts at every place. -/
def advance (p : Pattern) (states : List Pattern) (c : Char) : List Pattern :=
  (p :: states.flatMap (·.steps c)).eraseDups

/-- Whether one of the patterns in progress, or a later start of `p`, comes to an end. -/
def endsIn (p : Pattern) (states : List Pattern) : List Char → Bool
  | [] => List.any states nullable
  | c :: cs => List.any states nullable || endsIn p (advance p states c) cs

/-- Whether some part of the text is described by the pattern. -/
def occursIn (p : Pattern) (cs : List Char) : Bool := endsIn p [p] cs

end Pattern

end CodeDiagram.Text
