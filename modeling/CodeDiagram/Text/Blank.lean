/-
# Blanks

The characters that count as white space, and what is left of a text when they are stripped from
its ends.  A line is blank when it holds nothing else.  A byte order mark is not a blank.
-/

namespace CodeDiagram.Text

/-! ## 1. The class -/

/-- White space: the breaks and spaces of every script. -/
def isBlank (c : Char) : Bool :=
  let n := c.toNat
  (9 ≤ n && n ≤ 13) || n == 32 || n == 0x85 || n == 0xA0 || n == 0x1680 ||
    (0x2000 ≤ n && n ≤ 0x200A) || n == 0x2028 || n == 0x2029 || n == 0x202F || n == 0x205F ||
    n == 0x3000

/-- A text of blanks only, the empty one included. -/
def isBlankText (cs : List Char) : Bool := cs.all isBlank

/-! ## 2. Stripping -/

/-- The text without the blanks at its start. -/
def trimStart (cs : List Char) : List Char := cs.dropWhile isBlank

/-- The text without the characters of a class at its end. -/
def dropEndWhile (p : Char → Bool) (cs : List Char) : List Char :=
  (cs.reverse.dropWhile p).reverse

/-- The text without the blanks at its end. -/
def trimEnd (cs : List Char) : List Char := dropEndWhile isBlank cs

/-- The text without the blanks at either end. -/
def trim (cs : List Char) : List Char := trimEnd (trimStart cs)

/-- `trim` for strings. -/
def trimmed (s : String) : String := String.ofList (trim s.toList)

/-! ## 3. Small laws -/

/-- What is stripped from a blank text is all of it. -/
theorem trimStart_eq_nil_iff (cs : List Char) : trimStart cs = [] ↔ isBlankText cs = true := by
  induction cs with
  | nil => simp [trimStart, isBlankText]
  | cons c cs ih =>
    by_cases h : isBlank c = true
    · simp only [trimStart, isBlankText] at ih ⊢
      simp [h, ih]
    · simp [trimStart, isBlankText, h]

/-- No blank is left at the start. -/
theorem head_trimStart (cs : List Char) (c : Char) (h : (trimStart cs).head? = some c) :
    isBlank c = false := by
  induction cs with
  | nil => simp [trimStart] at h
  | cons d ds ih =>
    by_cases hd : isBlank d = true
    · exact ih (by simpa [trimStart, List.dropWhile_cons, hd] using h)
    · simp only [trimStart, List.dropWhile_cons, hd] at h
      simp at h
      subst h
      simpa using hd

end CodeDiagram.Text
