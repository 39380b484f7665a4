/-
# Names of types

The type of an object that is created is written as a row of names with dots between them, with
blanks around any of them, and with type arguments behind the last name, which may have type
arguments in turn (`TypeName`).  Its simple name is the last name.

The simple name is cut out of the text: what stands before the first angle bracket is taken, then
the blanks at its ends are stripped, then what stands behind the last dot is taken.  By the order of
these steps blanks behind the last name are stripped, but not those between the last dot and the
last name, which are taken for part of the name (`simpleTypeName_text`).
-/
import CodeDiagram.FrontEnd.Java

namespace CodeDiagram

open Syntax

/-! ## 1. Cutting and stripping -/

namespace Text

/-- What stands in front of a character that a text does not have is the text. -/
theorem takeWhile_ne_append {x : Char} {cs : List Char} (h : x ∉ cs) {ds : List Char}
    (hd : ∀ d ∈ ds.head?, d = x) : (cs ++ ds).takeWhile (· != x) = cs := by
  have hall : ∀ c ∈ cs, (c != x) = true := by
    intro c hc
    rw [bne_iff_ne]
    rintro rfl
    exact h hc
  rw [List.takeWhile_append_of_pos hall]
  cases ds with
  | nil => simp
  | cons d ds => simp [hd d rfl]

/-- Blanks in front of a text that does not start with one are dropped. -/
theorem dropWhile_isBlank_append {before cs : List Char} (hb : isBlankText before = true)
    (hc : ∀ c ∈ cs.head?, isBlank c = false) : (before ++ cs).dropWhile isBlank = cs := by
  rw [List.dropWhile_append_of_pos (List.all_eq_true.mp hb)]
  cases cs with
  | nil => rfl
  | cons c cs => simp [hc c rfl]

/-- **What is stripped from a text are the blanks at its ends.** -/
theorem trim_append {before core after : List Char} (hb : isBlankText before = true)
    (ha : isBlankText after = true) (hne : core ≠ []) (hfirst : ∀ c ∈ core.head?, isBlank c = false)
    (hlast : ∀ c ∈ core.getLast?, isBlank c = false) : trim (before ++ core ++ after) = core := by
  have hstart : trimStart (before ++ core ++ after) = core ++ after := by
    rw [trimStart, List.append_assoc]
    refine dropWhile_isBlank_append hb ?_
    rwa [List.head?_append, Option.or_of_isSome (List.isSome_head?.mpr hne)]
  have hend : isBlankText after.reverse = true := by
    rw [isBlankText, List.all_reverse]
    exact ha
  rw [trim, hstart, trimEnd, dropEndWhile, List.reverse_append,
    dropWhile_isBlank_append hend (by rwa [List.head?_reverse]), List.reverse_reverse]

end Text

namespace Java

open Text (isBlank isBlankText)

/-! ## 2. How a type is written -/

/-- A name: there is no blank, no dot and no angle bracket in it. -/
def IsName (cs : List Char) : Prop :=
  cs ≠ [] ∧ ∀ c ∈ cs, isBlank c = false ∧ c ≠ '.' ∧ c ≠ '<' ∧ c ≠ '>'

instance (cs : List Char) : Decidable (IsName cs) :=
  @instDecidableAnd _ _ inferInstance (List.decidableBAll _ cs)

/-- A name with the blanks on both of its sides. -/
structure Part where
  before : List Char
  name : List Char
  after : List Char
  isBlank_before : isBlankText before = true
  isBlank_after : isBlankText after = true
  isName : IsName name

/-- A part as it is written. -/
def Part.text (p : Part) : List Char := p.before ++ p.name ++ p.after

/-- A text in which every angle bracket that opens is closed behind it. -/
inductive Nested : List Char → Prop
  | nil : Nested []
  | char {c : Char} {cs : List Char} : c ≠ '<' → c ≠ '>' → Nested cs → Nested (c :: cs)
  | angle {inner cs : List Char} : Nested inner → Nested cs → Nested ('<' :: inner ++ '>' :: cs)

/-- A type: names with dots between them, and what stands between the angle brackets behind the last
name, if they are there. -/
structure TypeName where
  qualifiers : List Part
  last : Part
  arguments : Option (List Char) := none
  nested : ∀ inner ∈ arguments, Nested inner

namespace TypeName

/-- The names as they are written, with a dot behind each but the last. -/
def dotted (T : TypeName) : List Char :=
  T.qualifiers.flatMap (fun p => p.text ++ ['.']) ++ T.last.text

/-- A type as it is written. -/
def text (T : TypeName) : List Char :=
  T.dotted ++ T.arguments.elim [] fun inner => '<' :: inner ++ ['>']

/-- The last name. -/
def simpleName (T : TypeName) : String := String.ofList T.last.name

/-- The blanks between the last dot and the last name. -/
def gap (T : TypeName) : List Char := if T.qualifiers = [] then [] else T.last.before

theorem isBlankText_gap (T : TypeName) : isBlankText T.gap = true := by
  unfold gap
  split
  · rfl
  · exact T.last.isBlank_before

end TypeName

/-! ## 3. What is cut out -/

theorem Part.head?_name {p : Part} {c : Char} (h : c ∈ p.name.head?) : isBlank c = false :=
  (p.isName.2 c (List.mem_of_head? h)).1

theorem Part.getLast?_name {p : Part} {c : Char} (h : c ∈ p.name.getLast?) : isBlank c = false :=
  (p.isName.2 c (List.mem_of_getLast? h)).1

/-- What stands in front of a part is a blank or of the name. -/
theorem Part.notMem_text (p : Part) {x : Char} (hblank : isBlank x = false) (hname : x ∉ p.name) :
    x ∉ p.text := by
  have hside : ∀ {cs : List Char}, isBlankText cs = true → x ∉ cs := by
    intro cs hcs hx
    rw [List.all_eq_true.mp hcs x hx] at hblank
    cases hblank
  simp only [text, List.mem_append, not_or]
  exact ⟨⟨hside p.isBlank_before, hname⟩, hside p.isBlank_after⟩

theorem Part.bracket_notMem_text (p : Part) : '<' ∉ p.text :=
  p.notMem_text (by decide) fun h => (p.isName.2 _ h).2.2.1 rfl

/-- The blanks and the name behind a dot, without another dot. -/
theorem Part.dot_notMem (p : Part) : '.' ∉ p.before ++ p.name := by
  have h := p.notMem_text (x := '.') (by decide) fun h => (p.isName.2 _ h).2.1 rfl
  rw [text, List.mem_append, not_or] at h
  exact h.1

namespace TypeName

/-- The first angle bracket is that of the type arguments. -/
theorem takeWhile_text (T : TypeName) : T.text.takeWhile (· != '<') = T.dotted := by
  refine Text.takeWhile_ne_append ?_ ?_
  · rw [dotted, List.mem_append, List.mem_flatMap]
    rintro (⟨p, -, hp⟩ | hlast)
    · rw [List.mem_append] at hp
      rcases hp with hp | hp
      · exact p.bracket_notMem_text hp
      · exact absurd hp (by decide)
    · exact T.last.bracket_notMem_text hlast
  · cases T.arguments with
    | none => simp
    | some inner => simp

/-- Without qualifiers the last name is all that is left. -/
theorem trim_dotted_of_nil {T : TypeName} (h : T.qualifiers = []) :
    Text.trim T.dotted = T.last.name := by
  rw [dotted, h, List.flatMap_nil, List.nil_append, Part.text]
  exact Text.trim_append T.last.isBlank_before T.last.isBlank_after T.last.isName.1
    (fun _ => Part.head?_name) (fun _ => Part.getLast?_name)

/-- A dot behind each qualifier is a dot in front of each but the first, and one in front of the
last name. -/
theorem dot_flatMap (ps : List Part) (rest : List Char) :
    '.' :: (ps.flatMap (fun p => p.text ++ ['.']) ++ rest) =
      ps.flatMap (fun p => '.' :: p.text) ++ '.' :: rest := by
  induction ps with
  | nil => rfl
  | cons p ps ih =>
    simp only [List.flatMap_cons, List.append_assoc, List.cons_append, List.nil_append, ih]

/-- With qualifiers there is a dot left, with the blanks and the name behind it. -/
theorem trim_dotted_of_cons {T : TypeName} {q : Part} {qs : List Part}
    (h : T.qualifiers = q :: qs) :
    ∃ front, Text.trim T.dotted = front ++ '.' :: (T.last.before ++ T.last.name) := by
  refine ⟨q.name ++ (q.after ++ qs.flatMap (fun p => '.' :: p.text)), ?_⟩
  have hdotted : T.dotted =
      q.before ++ (q.name ++ (q.after ++ qs.flatMap (fun p => '.' :: p.text)) ++
        '.' :: (T.last.before ++ T.last.name)) ++ T.last.after := by
    have hdots := dot_flatMap qs T.last.text
    simp only [Part.text, List.append_assoc] at hdots
    simp only [dotted, h, List.flatMap_cons, Part.text, List.append_assoc, List.nil_append,
      List.cons_append, hdots]
  rw [hdotted]
  refine Text.trim_append q.isBlank_before T.last.isBlank_after (by simp) ?_ ?_
  · intro c hc
    rw [List.append_assoc, List.head?_append,
      Option.or_of_isSome (List.isSome_head?.mpr q.isName.1)] at hc
    exact Part.head?_name hc
  · intro c hc
    rw [← List.cons_append, ← List.append_assoc, List.getLast?_append,
      Option.or_of_isSome (List.getLast?_isSome.mpr T.last.isName.1)] at hc
    exact Part.getLast?_name hc

end TypeName

/-- What stands behind the last dot, if there is a dot. -/
theorem takeWhile_reverse_append {front back : List Char} (h : '.' ∉ back)
    (hf : ∀ c ∈ front.getLast?, c = '.') :
    ((front ++ back).reverse.takeWhile (· != '.')).reverse = back := by
  rw [List.reverse_append, Text.takeWhile_ne_append (by simpa using h) (by simpa using hf),
    List.reverse_reverse]

/-- **What is cut out of a type** is the last name, with the blanks between the last dot and it. -/
theorem simpleTypeName_text (T : TypeName) :
    simpleTypeName (String.ofList T.text) = String.ofList (T.gap ++ T.last.name) := by
  have hdot := T.last.dot_notMem
  rw [simpleTypeName, String.toList_ofList, T.takeWhile_text]
  cases hq : T.qualifiers with
  | nil =>
    have hname : '.' ∉ T.last.name := fun hmem => hdot (List.mem_append_right _ hmem)
    have hnone : ∀ c ∈ ([] : List Char).getLast?, c = '.' := by simp
    have hcut := takeWhile_reverse_append hname hnone
    rw [List.nil_append] at hcut
    rw [TypeName.trim_dotted_of_nil hq, hcut, TypeName.gap, if_pos hq, List.nil_append]
  | cons q qs =>
    obtain ⟨front, hfront⟩ := TypeName.trim_dotted_of_cons hq
    have hlast : ∀ c ∈ (front ++ ['.']).getLast?, c = '.' := by simp
    have hcut := takeWhile_reverse_append hdot hlast
    rw [List.append_assoc, List.singleton_append] at hcut
    have hne : ¬ T.qualifiers = [] := by simp [hq]
    rw [hfront, hcut, TypeName.gap, if_neg hne]

/-! ## 4. Objects that are created -/

/-- A node that creates an object of a type. -/
structure IsCreation (d : Document) (n : Node) (T : TypeName) : Prop where
  kind : n.kind = "object_creation_expression"
  type : d.fieldText? n "type" = some (String.ofList T.text)

variable {d : Document} {n : Node} {T : TypeName}

/-- Creating an object calls what is cut out of its type. -/
theorem IsCreation.calleeName (h : IsCreation d n T) :
    Java.calleeName d n = some (String.ofList (T.gap ++ T.last.name)) := by
  rw [Java.calleeName, h.kind, h.type]
  exact congrArg some (simpleTypeName_text T)

/-- **The simple name of a type is called** exactly if the last name follows the last dot. -/
theorem IsCreation.calleeName_eq_iff (h : IsCreation d n T) :
    Java.calleeName d n = some T.simpleName ↔ T.gap = [] := by
  rw [h.calleeName, TypeName.simpleName, Option.some.injEq, String.ofList_inj,
    List.append_left_eq_self]

end Java

end CodeDiagram
