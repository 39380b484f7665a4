/-
# Values that were written are read

Both texts of a value, the one without spaces and the one over several lines, are read as the value
(`parse_compact`, `parse_pretty`), if it holds no floating-point number and no integer that is too
long (`isExact`).  Strings may hold anything.

A text that is read wherever it stands is said to spell its value (`Spells`).  What spells a value
is put together as the reader takes it apart: strings and integers spell themselves, and arrays and
objects are looked at for any spaces between their parts, so that both texts are cases of one.
-/
import CodeDiagram.Proofs.Json.Leaves
import Mathlib.Data.List.Forall2

namespace CodeDiagram.Json

open Number

/-! ## 1. Texts that spell a value -/

/-- The readers of strings and numbers that count. -/
def exactLeaves : Leaves := ⟨stringTail, number⟩

theorem value_eq : value = valueWith exactLeaves := rfl

/-- A text that is read as a value wherever it stands, if what stands behind could stop a number.
It starts with what is neither a space nor the end of an array. -/
structure Spells (v : Json) (text : String) : Prop where
  starts : ∃ c cs, text.toList = c :: cs ∧ isSpace c = false ∧ c ≠ ']'
  reads : ∀ turns rest, text.toList.length ≤ turns → Stops rest →
    valueWithin exactLeaves (turns + 1) (text.toList ++ rest) = .ok (v, rest)

/-- A text of spaces. -/
def IsGap (gap : String) : Prop := ∀ c ∈ gap.toList, isSpace c = true

instance (gap : String) : Decidable (IsGap gap) := List.decidableBAll _ gap.toList

/-- Spaces at the start of a text do not matter. -/
theorem skipSpace_append {gap : String} (h : IsGap gap) (cs : List Char) :
    skipSpace (gap.toList ++ cs) = skipSpace cs := List.dropWhile_append_of_pos h

/-- A text that does not start with a space is what it is. -/
theorem skipSpace_cons {c : Char} (h : isSpace c = false) (cs : List Char) :
    skipSpace (c :: cs) = c :: cs := by
  rw [skipSpace, List.dropWhile_cons, h, if_neg Bool.false_ne_true]

/-- Spaces stop a number, and so does what stands behind them. -/
theorem stops_append {gap : String} (h : IsGap gap) {cs : List Char} (hcs : Stops cs) :
    Stops (gap.toList ++ cs) := by
  rw [IsGap] at h
  cases hgap : gap.toList with
  | nil => exact hcs
  | cons c gap =>
    rintro _ ⟨⟩
    have hspace := h c (hgap ▸ List.mem_cons_self)
    simp only [isSpace, Bool.or_eq_true, beq_iff_eq] at hspace
    rcases hspace with ((rfl | rfl) | rfl) | rfl <;> rfl

section Readers

variable {leaves : Leaves} {gap : String} {turns : Nat}

theorem valueWithin_append (hgap : IsGap gap) (cs : List Char) :
    valueWithin leaves turns (gap.toList ++ cs) = valueWithin leaves turns cs := by
  cases turns with
  | zero => rfl
  | succ turns => simp only [valueWithin, skipSpace_append hgap]

theorem itemsWithin_append (hgap : IsGap gap) (cs : List Char) :
    itemsWithin leaves turns (gap.toList ++ cs) = itemsWithin leaves turns cs := by
  cases turns with
  | zero => rfl
  | succ turns => simp only [itemsWithin, valueWithin_append hgap]

theorem membersWithin_append (hgap : IsGap gap) (cs : List Char) :
    membersWithin leaves turns (gap.toList ++ cs) = membersWithin leaves turns cs := by
  cases turns with
  | zero => rfl
  | succ turns => simp only [membersWithin, skipSpace_append hgap]

variable {cs more rest : List Char} {v : Json} {vs : List Json} {key : String}
  {ms : List (String × Json)}

/-- The last item of an array. -/
theorem itemsWithin_last (hv : valueWithin leaves turns cs = .ok (v, more))
    (hmore : skipSpace more = ']' :: rest) :
    itemsWithin leaves (turns + 1) cs = .ok ([v], rest) := by
  simp only [itemsWithin, hv, bind, Except.bind, hmore]
  rfl

/-- An item with others behind it. -/
theorem itemsWithin_more (hv : valueWithin leaves turns cs = .ok (v, ',' :: more))
    (hvs : itemsWithin leaves turns more = .ok (vs, rest)) :
    itemsWithin leaves (turns + 1) cs = .ok (v :: vs, rest) := by
  have hcomma : skipSpace (',' :: more) = ',' :: more := rfl
  simp only [itemsWithin, hv, bind, Except.bind, hcomma, hvs]
  rfl

/-- Nothing between brackets. -/
theorem valueWithin_arr_nil (hcs : skipSpace cs = ']' :: rest) :
    valueWithin leaves (turns + 1) ('[' :: cs) = .ok (.arr [], rest) := by
  have hbracket : skipSpace ('[' :: cs) = '[' :: cs := rfl
  simp only [valueWithin, hbracket, hcs]

/-- Items between brackets. -/
theorem valueWithin_arr (hcs : ∀ rest, skipSpace cs ≠ ']' :: rest)
    (hvs : itemsWithin leaves turns (skipSpace cs) = .ok (vs, rest)) :
    valueWithin leaves (turns + 1) ('[' :: cs) = .ok (.arr vs, rest) := by
  have hbracket : skipSpace ('[' :: cs) = '[' :: cs := rfl
  simp only [valueWithin, hbracket, hvs]
  rfl

/-- The last member of an object. -/
theorem membersWithin_last {colon : List Char} (hkey : leaves.text cs = .ok (key, ':' :: colon))
    (hv : valueWithin leaves turns colon = .ok (v, more))
    (hmore : skipSpace more = '\x7d' :: rest) :
    membersWithin leaves (turns + 1) ('"' :: cs) = .ok ([(key, v)], rest) := by
  have hquote : skipSpace ('"' :: cs) = '"' :: cs := rfl
  have hcolon : skipSpace (':' :: colon) = ':' :: colon := rfl
  simp only [membersWithin, hquote, hkey, bind, Except.bind, hcolon, hv, hmore]
  rfl

/-- A member with others behind it. -/
theorem membersWithin_more {colon : List Char} (hkey : leaves.text cs = .ok (key, ':' :: colon))
    (hv : valueWithin leaves turns colon = .ok (v, ',' :: more))
    (hms : membersWithin leaves turns more = .ok (ms, rest)) :
    membersWithin leaves (turns + 1) ('"' :: cs) = .ok ((key, v) :: ms, rest) := by
  have hquote : skipSpace ('"' :: cs) = '"' :: cs := rfl
  have hcolon : skipSpace (':' :: colon) = ':' :: colon := rfl
  have hcomma : skipSpace (',' :: more) = ',' :: more := rfl
  simp only [membersWithin, hquote, hkey, bind, Except.bind, hcolon, hv, hcomma, hms]
  rfl

/-- Nothing between braces. -/
theorem valueWithin_obj_nil (hcs : skipSpace cs = '\x7d' :: rest) :
    valueWithin leaves (turns + 1) ('\x7b' :: cs) = .ok (.obj [], rest) := by
  have hbrace : skipSpace ('\x7b' :: cs) = '\x7b' :: cs := rfl
  simp only [valueWithin, hbrace, hcs]

/-- Members between braces. -/
theorem valueWithin_obj (hcs : ∀ rest, skipSpace cs ≠ '\x7d' :: rest)
    (hms : membersWithin leaves turns (skipSpace cs) = .ok (ms, rest)) :
    valueWithin leaves (turns + 1) ('\x7b' :: cs) = .ok (.obj ms, rest) := by
  have hbrace : skipSpace ('\x7b' :: cs) = '\x7b' :: cs := rfl
  simp only [valueWithin, hbrace, hms]
  rfl

end Readers

/-! ## 2. Values that hold no other -/

theorem spells_null : Spells .null "null" where
  starts := ⟨'n', _, rfl, rfl, by decide⟩
  reads _ _ _ _ := rfl

theorem spells_true : Spells (.bool true) "true" where
  starts := ⟨'t', _, rfl, rfl, by decide⟩
  reads _ _ _ _ := rfl

theorem spells_false : Spells (.bool false) "false" where
  starts := ⟨'f', _, rfl, rfl, by decide⟩
  reads _ _ _ _ := rfl

/-- A string spells itself between its quotes. -/
theorem spells_quoted (s : String) : Spells (.str s) (quoted s) where
  starts := ⟨'"', s.toList.flatMap escapeChar ++ ['"'], String.toList_ofList, rfl, by decide⟩
  reads turns rest _ _ := by
    have hquote : ∀ cs, skipSpace ('"' :: cs) = '"' :: cs := fun _ => rfl
    rw [quoted, String.toList_ofList, List.cons_append, List.cons_append, List.append_assoc,
      List.singleton_append]
    simp only [valueWithin, hquote, exactLeaves, stringTail_quoted]
    rfl

/-- What an integer starts with. -/
def startsInteger (c : Char) : Bool := isDigit c || c == '-'

theorem exists_toList_toString (n : Int) :
    ∃ c cs, (toString n).toList = c :: cs ∧ startsInteger c = true := by
  cases n with
  | ofNat n =>
    have hdigits : (toString (Int.ofNat n)).toList = Nat.toDigits 10 n := toList_toString n
    have hnumeral := isNumeral_toDigits n
    obtain ⟨c, cs, hcs⟩ := List.exists_cons_of_ne_nil hnumeral.ne_nil
    have hdigit := hnumeral.digits c (hcs ▸ List.mem_cons_self)
    exact ⟨c, cs, hdigits.trans hcs, by rw [startsInteger, hdigit, Bool.true_or]⟩
  | negSucc n => exact ⟨'-', _, String.toList_append, rfl⟩

theorem isSpace_of_startsInteger {c : Char} (h : startsInteger c = true) : isSpace c = false := by
  rw [← Bool.not_eq_true]
  intro hspace
  simp only [isSpace, Bool.or_eq_true, beq_iff_eq] at hspace
  rcases hspace with ((rfl | rfl) | rfl) | rfl
  all_goals exact absurd h (by decide)

/-- What starts like an integer is a number. -/
theorem valueWithin_number {c : Char} (h : startsInteger c = true) (leaves : Leaves)
    (turns : Nat) (cs : List Char) :
    valueWithin leaves (turns + 1) (c :: cs) = leaves.number (c :: cs) := by
  rw [valueWithin, skipSpace_cons (isSpace_of_startsInteger h)]
  split
  case h_7 => rfl
  all_goals
    rename_i heq
    cases heq
    exact absurd h (by decide)

/-- An integer spells itself. -/
theorem spells_int {n : Int} (h : isInteger (n < 0) n.natAbs = true) :
    Spells (.int n) (toString n) := by
  obtain ⟨c, cs, hcs, hc⟩ := exists_toList_toString n
  refine ⟨⟨c, cs, hcs, isSpace_of_startsInteger hc, ?_⟩, fun turns rest _ hstop => ?_⟩
  · rintro rfl
    exact absurd hc (by decide)
  · rw [hcs, List.cons_append, valueWithin_number hc, ← List.cons_append, ← hcs]
    exact number_toString h hstop

/-! ## 3. Values that hold others -/

/-- Texts with a comma and spaces between them. -/
def listed (gap : String) (texts : List String) : List Char :=
  (',' :: gap.toList).intercalate (texts.map String.toList)

theorem listed_singleton (gap text : String) : listed gap [text] = text.toList :=
  List.intercalate_singleton

theorem listed_cons_cons (gap text next : String) (texts : List String) :
    listed gap (text :: next :: texts) =
      text.toList ++ ',' :: (gap.toList ++ listed gap (next :: texts)) := by
  rw [listed, List.map_cons, List.map_cons, List.intercalate_cons_cons, List.append_assoc]
  rfl

/-- Texts start as the first of them. -/
theorem exists_listed_cons (gap : String) {text : String} {c : Char} {cs : List Char}
    (h : text.toList = c :: cs) (texts : List String) :
    ∃ more, listed gap (text :: texts) = c :: more := by
  cases texts with
  | nil => exact ⟨cs, by rw [listed_singleton, h]⟩
  | cons next texts => exact ⟨_, by rw [listed_cons_cons, h, List.cons_append]⟩

/-- What stands between brackets or braces. -/
theorem toList_enclosed (opening closing lead gap tail : String) (texts : List String) :
    (opening ++ lead ++ String.intercalate ("," ++ gap) texts ++ tail ++ closing).toList =
      opening.toList ++ (lead.toList ++ (listed gap texts ++ (tail.toList ++ closing.toList))) := by
  simp only [listed, String.toList_append, String.toList_intercalate, List.append_assoc]
  rfl

/-- Items, with spaces behind the commas and at the end, are read as what they spell. -/
theorem itemsWithin_texts {items : List Json} {texts : List String}
    (h : List.Forall₂ Spells items texts) (hne : items ≠ []) {gap tail : String} (hgap : IsGap gap)
    (htail : IsGap tail) (rest : List Char) {turns : Nat}
    (hturns : (listed gap texts).length + 2 ≤ turns) :
    itemsWithin exactLeaves turns (listed gap texts ++ (tail.toList ++ ']' :: rest)) =
      .ok (items, rest) := by
  induction h generalizing turns with
  | nil => exact absurd rfl hne
  | @cons v text items texts hv hitems ih =>
    obtain ⟨turns, rfl⟩ := Nat.exists_eq_add_of_le' (Nat.le_trans (Nat.le_add_left 2 _) hturns)
    cases hitems with
    | nil =>
      rw [listed_singleton] at hturns ⊢
      refine itemsWithin_last (hv.reads turns _ (by omega) ?_) (skipSpace_append htail _)
      exact stops_append htail fun _ hc => by cases hc; rfl
    | @cons w next items texts hw hmore =>
      rw [listed_cons_cons, List.length_append, List.length_cons, List.length_append] at hturns
      rw [listed_cons_cons, List.append_assoc, List.cons_append, List.append_assoc]
      refine itemsWithin_more (hv.reads turns _ (by omega) fun _ hc => by cases hc; rfl) ?_
      rw [itemsWithin_append hgap]
      exact ih (by simp) (by omega)

/-- Items between brackets, with any spaces, spell an array. -/
theorem Spells.arr {items : List Json} {texts : List String}
    (h : List.Forall₂ Spells items texts) {lead gap tail : String} (hlead : IsGap lead)
    (hgap : IsGap gap) (htail : IsGap tail) :
    Spells (.arr items) ("[" ++ lead ++ String.intercalate ("," ++ gap) texts ++ tail ++ "]") := by
  have htext : _ = '[' :: (lead.toList ++ (listed gap texts ++ (tail.toList ++ [']']))) :=
    toList_enclosed "[" "]" lead gap tail texts
  refine ⟨⟨'[', _, htext, rfl, by decide⟩, fun turns rest hturns _ => ?_⟩
  rw [htext] at hturns ⊢
  simp only [List.cons_append, List.append_assoc, List.nil_append, List.length_cons,
    List.length_append, List.length_nil] at hturns ⊢
  cases h with
  | nil =>
    refine valueWithin_arr_nil ?_
    rw [skipSpace_append hlead]
    exact skipSpace_append htail _
  | @cons v text items texts hv hitems =>
    obtain ⟨c, cs, hcs, hspace, hc⟩ := hv.starts
    obtain ⟨more, hmore⟩ := exists_listed_cons gap hcs texts
    have hskip : ∀ tail, skipSpace (lead.toList ++ (listed gap (text :: texts) ++ tail)) =
        listed gap (text :: texts) ++ tail := fun tail => by
      rw [skipSpace_append hlead, hmore, List.cons_append, skipSpace_cons hspace]
    refine valueWithin_arr (fun _ hclose => ?_) ?_
    · rw [hskip, hmore, List.cons_append] at hclose
      exact hc (List.cons.inj hclose).1
    · rw [hskip]
      exact itemsWithin_texts (.cons hv hitems) (List.cons_ne_nil _ _) hgap htail rest (by omega)

/-- A member of an object with its text: the key, and what spells the value. -/
def SpellsMember (member : String × Json) (text : String) : Prop :=
  ∃ gap valueText, IsGap gap ∧ Spells member.2 valueText ∧
    text = quoted member.1 ++ ":" ++ gap ++ valueText

/-- The text of a member in characters. -/
theorem toList_member (key gap text : String) :
    (quoted key ++ ":" ++ gap ++ text).toList =
      '"' :: (key.toList.flatMap escapeChar ++ '"' :: ':' :: (gap.toList ++ text.toList)) := by
  simp only [quoted, String.toList_append, String.toList_ofList, List.append_assoc,
    List.cons_append, List.nil_append]
  rfl

/-- Members, with spaces behind the commas and at the end, are read as what they spell. -/
theorem membersWithin_texts {members : List (String × Json)} {texts : List String}
    (h : List.Forall₂ SpellsMember members texts) (hne : members ≠ []) {gap tail : String}
    (hgap : IsGap gap) (htail : IsGap tail) (rest : List Char) {turns : Nat}
    (hturns : (listed gap texts).length + 2 ≤ turns) :
    membersWithin exactLeaves turns (listed gap texts ++ (tail.toList ++ '\x7d' :: rest)) =
      .ok (members, rest) := by
  induction h generalizing turns with
  | nil => exact absurd rfl hne
  | @cons member text members texts hmember hmembers ih =>
    obtain ⟨turns, rfl⟩ := Nat.exists_eq_add_of_le' (Nat.le_trans (Nat.le_add_left 2 _) hturns)
    obtain ⟨key, v⟩ := member
    obtain ⟨inner, valueText, hinner, hv, rfl⟩ := hmember
    have hkey := fun more => stringTail_quoted key (':' :: more)
    have hvalue : ∀ more, valueText.toList.length ≤ turns → Stops more →
        valueWithin exactLeaves (turns + 1) (inner.toList ++ (valueText.toList ++ more)) =
          .ok (v, more) := fun more hlength hstop => by
      rw [valueWithin_append hinner]
      exact hv.reads turns more hlength hstop
    cases hmembers with
    | nil =>
      rw [listed_singleton, toList_member] at hturns ⊢
      simp only [List.length_cons, List.length_append] at hturns
      simp only [List.cons_append, List.append_assoc]
      refine membersWithin_last (hkey _) (hvalue _ (by omega) ?_) (skipSpace_append htail _)
      exact stops_append htail fun _ hc => by cases hc; rfl
    | @cons next nextText members texts hnext hmore =>
      rw [listed_cons_cons, toList_member] at hturns ⊢
      simp only [List.length_cons, List.length_append] at hturns
      simp only [List.cons_append, List.append_assoc]
      refine membersWithin_more (hkey _) (hvalue _ (by omega) fun _ hc => by cases hc; rfl) ?_
      rw [membersWithin_append hgap]
      exact ih (List.cons_ne_nil _ _) (by omega)

/-- Members between braces, with any spaces, spell an object. -/
theorem Spells.obj {members : List (String × Json)} {texts : List String}
    (h : List.Forall₂ SpellsMember members texts) {lead gap tail : String} (hlead : IsGap lead)
    (hgap : IsGap gap) (htail : IsGap tail) :
    Spells (.obj members)
      ("\x7b" ++ lead ++ String.intercalate ("," ++ gap) texts ++ tail ++ "\x7d") := by
  have htext : _ = '\x7b' :: (lead.toList ++ (listed gap texts ++ (tail.toList ++ ['\x7d']))) :=
    toList_enclosed "\x7b" "\x7d" lead gap tail texts
  refine ⟨⟨'\x7b', _, htext, rfl, by decide⟩, fun turns rest hturns _ => ?_⟩
  rw [htext] at hturns ⊢
  simp only [List.cons_append, List.append_assoc, List.nil_append, List.length_cons,
    List.length_append, List.length_nil] at hturns ⊢
  cases h with
  | nil =>
    refine valueWithin_obj_nil ?_
    rw [skipSpace_append hlead]
    exact skipSpace_append htail _
  | @cons member text members texts hmember hmembers =>
    have hstart : ∃ cs, text.toList = '"' :: cs := by
      obtain ⟨inner, valueText, -, -, rfl⟩ := hmember
      exact ⟨_, toList_member ..⟩
    obtain ⟨cs, hcs⟩ := hstart
    obtain ⟨more, hmore⟩ := exists_listed_cons gap hcs texts
    have hskip : ∀ tail, skipSpace (lead.toList ++ (listed gap (text :: texts) ++ tail)) =
        listed gap (text :: texts) ++ tail := fun tail => by
      rw [skipSpace_append hlead, hmore, List.cons_append, skipSpace_cons rfl]
    refine valueWithin_obj (fun _ hclose => ?_) ?_
    · rw [hskip, hmore] at hclose
      cases hclose
    · rw [hskip]
      exact membersWithin_texts (.cons hmember hmembers) (List.cons_ne_nil _ _) hgap htail rest
        (by omega)

/-! ## 4. The two texts -/

mutual

/-- Whether a value holds no floating-point number, and only integers that are read as such. -/
def isExact : Json → Bool
  | .float _ => false
  | .int n => isInteger (n < 0) n.natAbs
  | .arr items => areExact items
  | .obj members => haveExact members
  | _ => true

/-- `isExact` for the items of an array. -/
def areExact : List Json → Bool
  | [] => true
  | v :: vs => v.isExact && areExact vs

/-- `isExact` for the members of an object. -/
def haveExact : List (String × Json) → Bool
  | [] => true
  | (_, v) :: ms => v.isExact && haveExact ms

end

theorem isGap_empty : IsGap "" := fun _ hc => by cases hc

theorem isGap_append {gap gap' : String} (h : IsGap gap) (h' : IsGap gap') :
    IsGap (gap ++ gap') := by
  intro c hc
  rw [String.toList_append, List.mem_append] at hc
  exact hc.elim (h c) (h' c)

mutual

/-- The text without spaces spells its value. -/
theorem spells_compact : ∀ {v : Json}, v.isExact = true → Spells v v.compact
  | .null, _ => spells_null
  | .bool true, _ => spells_true
  | .bool false, _ => spells_false
  | .int _, h => spells_int h
  | .float _, h => by cases h
  | .str s, _ => spells_quoted s
  | .arr items, h => by
    have hexact : areExact items = true := by rwa [isExact] at h
    simpa [compact] using
      Spells.arr (spells_compactItems hexact) isGap_empty isGap_empty isGap_empty
  | .obj members, h => by
    have hexact : haveExact members = true := by rwa [isExact] at h
    simpa [compact] using
      Spells.obj (spells_compactMembers hexact) isGap_empty isGap_empty isGap_empty

theorem spells_compactItems :
    ∀ {items : List Json}, areExact items = true → List.Forall₂ Spells items (compactItems items)
  | [], _ => .nil
  | v :: vs, h => by
    rw [areExact, Bool.and_eq_true] at h
    exact .cons (spells_compact h.1) (spells_compactItems h.2)

theorem spells_compactMembers : ∀ {members : List (String × Json)}, haveExact members = true →
    List.Forall₂ SpellsMember members (compactMembers members)
  | [], _ => .nil
  | (key, v) :: ms, h => by
    rw [haveExact, Bool.and_eq_true] at h
    refine .cons ⟨"", _, isGap_empty, spells_compact h.1, ?_⟩ (spells_compactMembers h.2)
    rw [String.append_empty]

end

/-- A block is a list between brackets: in lines of their own, or with nothing in it. -/
theorem exists_block_eq (opening closing : String) {margin : String} (h : IsGap margin)
    (texts : List String) : ∃ lead gap tail, IsGap lead ∧ IsGap gap ∧ IsGap tail ∧
      block opening closing margin texts =
        opening ++ lead ++ String.intercalate ("," ++ gap) texts ++ tail ++ closing := by
  rw [block]
  split
  · next hempty =>
    refine ⟨"", "", "", isGap_empty, isGap_empty, isGap_empty, ?_⟩
    rw [List.isEmpty_iff.mp hempty]
    simp
  · have hbreak : IsGap "\n" := by decide
    have hinner : IsGap (margin ++ "  ") := isGap_append h (by decide)
    refine ⟨"\n" ++ (margin ++ "  "), "\n" ++ (margin ++ "  "), "\n" ++ margin,
      isGap_append hbreak hinner, isGap_append hbreak hinner, isGap_append hbreak h, ?_⟩
    have hcomma : ",\n" = "," ++ "\n" := rfl
    simp only [hcomma, String.append_assoc]

mutual

/-- The text over several lines spells its value. -/
theorem spells_prettyAt :
    ∀ {margin : String} {v : Json}, IsGap margin → v.isExact = true → Spells v (v.prettyAt margin)
  | _, .null, _, _ => spells_null
  | _, .bool true, _, _ => spells_true
  | _, .bool false, _, _ => spells_false
  | _, .int _, _, h => spells_int h
  | _, .float _, _, h => by cases h
  | _, .str s, _, _ => spells_quoted s
  | margin, .arr items, hmargin, h => by
    have hexact : areExact items = true := by rwa [isExact] at h
    obtain ⟨lead, gap, tail, hlead, hgap, htail, hblock⟩ := exists_block_eq "[" "]" hmargin _
    rw [prettyAt, hblock]
    exact Spells.arr (spells_prettyItems hmargin hexact) hlead hgap htail
  | margin, .obj members, hmargin, h => by
    have hexact : haveExact members = true := by rwa [isExact] at h
    obtain ⟨lead, gap, tail, hlead, hgap, htail, hblock⟩ := exists_block_eq "\x7b" "\x7d" hmargin _
    rw [prettyAt, hblock]
    exact Spells.obj (spells_prettyMembers hmargin hexact) hlead hgap htail

theorem spells_prettyItems : ∀ {margin : String} {items : List Json}, IsGap margin →
    areExact items = true → List.Forall₂ Spells items (prettyItems (margin ++ "  ") items)
  | _, [], _, _ => .nil
  | _, v :: vs, hmargin, h => by
    rw [areExact, Bool.and_eq_true] at h
    exact .cons (spells_prettyAt (isGap_append hmargin (by decide)) h.1)
      (spells_prettyItems hmargin h.2)

theorem spells_prettyMembers : ∀ {margin : String} {members : List (String × Json)}, IsGap margin →
    haveExact members = true →
      List.Forall₂ SpellsMember members (prettyMembers (margin ++ "  ") members)
  | _, [], _, _ => .nil
  | margin, (key, v) :: ms, hmargin, h => by
    rw [haveExact, Bool.and_eq_true] at h
    have hvalue : Spells v (v.prettyAt (margin ++ "  ")) :=
      spells_prettyAt (isGap_append hmargin (by decide)) h.1
    have hcolon : ": " = ":" ++ " " := rfl
    refine .cons ⟨" ", _, by decide, hvalue, ?_⟩ (spells_prettyMembers hmargin h.2)
    rw [hcolon, ← String.append_assoc]

end

/-- A text that spells a value is read as it. -/
theorem Spells.parse {v : Json} {text : String} (h : Spells v text) : Json.parse text = .ok v := by
  have hread := h.reads text.toList.length [] (Nat.le_refl _) fun _ hc => by cases hc
  rw [List.append_nil] at hread
  rw [Json.parse, value_eq, valueWith, hread]
  rfl

/-- **A value is read from its text without spaces.** -/
theorem parse_compact {v : Json} (h : v.isExact = true) : Json.parse v.compact = .ok v :=
  (spells_compact h).parse

/-- **A value is read from its text over several lines.** -/
theorem parse_pretty {v : Json} (h : v.isExact = true) : Json.parse v.pretty = .ok v :=
  (spells_prettyAt isGap_empty h).parse

end CodeDiagram.Json
