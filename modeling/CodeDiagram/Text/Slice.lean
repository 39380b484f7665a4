/-
# Byte ranges of a text

Places in a text are counted in bytes of its UTF-8 form.  A range gives text only if it lies inside
and both of its ends stand between characters.
-/

namespace CodeDiagram.Text

/-- The text between two byte offsets. -/
def slice (s : String) (start stop : Nat) : Option String :=
  if start ≤ stop then
    match s.pos? ⟨start⟩, s.pos? ⟨stop⟩ with
    | some a, some b => some (s.extract a b)
    | _, _ => none
  else none

/-- The number of line feeds among the first `n` bytes. -/
def breaksBefore (s : String) (n : Nat) : Nat :=
  let bytes := s.toUTF8
  n.fold (fun i _ count => if bytes[i]? = some 10 then count + 1 else count) 0

end CodeDiagram.Text
