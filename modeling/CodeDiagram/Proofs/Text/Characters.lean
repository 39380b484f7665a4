/-
# The characters of a text

What is stripped, cut or taken from a text has no other characters than the text itself.  A text
that is normalized or moved left may have line feeds besides, one that is cut to a limit dots, and
one in the wrapper class those of the wrapper: all of them are characters that an XML document may
have (`IsXmlChar`).  So a class that has these characters is not left by anything that is done to a
text (`Within.slice`, `Within.truncate`, `Within.normalize`, `Within.dedent`, `Within.wrap`).
-/
import CodeDiagram.FrontEnd.Java
import CodeDiagram.Proofs.Number.Digits
import CodeDiagram.Proofs.Text.Dedenting
import CodeDiagram.Text.Label

namespace CodeDiagram.Text

/-! ## 1. Classes of characters -/

/-- The characters that an XML document may have. -/
def IsXmlChar (c : Char) : Prop :=
  c = '\t' ∨ c = '\n' ∨ c = '\r' ∨ 0x20 ≤ c.toNat ∧ c.toNat ≤ 0xD7FF ∨
    0xE000 ≤ c.toNat ∧ c.toNat ≤ 0xFFFD ∨ 0x10000 ≤ c.toNat ∧ c.toNat ≤ 0x10FFFF

instance : DecidablePred IsXmlChar := fun _ => inferInstanceAs (Decidable (_ ∨ _))

/-- All characters of a text are of a class. -/
def Within (P : Char → Prop) (s : String) : Prop := ∀ c ∈ s.toList, P c

instance (P : Char → Prop) [DecidablePred P] (s : String) : Decidable (Within P s) :=
  List.decidableBAll P s.toList

variable {P Q : Char → Prop} {s t : String}

theorem Within.mono (h : Within P s) (hPQ : ∀ c, P c → Q c) : Within Q s :=
  fun c hc => hPQ c (h c hc)

theorem within_append : Within P (s ++ t) ↔ Within P s ∧ Within P t := by
  rw [Within, String.toList_append, List.forall_mem_append, Within, Within]

theorem within_ofList {cs : List Char} : Within P (String.ofList cs) ↔ ∀ c ∈ cs, P c := by
  rw [Within, String.toList_ofList]

/-- What is made of characters of a text stays in its class. -/
theorem Within.ofList_of_subset (h : Within P s) {cs : List Char} (hcs : cs ⊆ s.toList) :
    Within P (String.ofList cs) :=
  within_ofList.mpr fun c hc => h c (hcs hc)

theorem isXmlChar_of_isDigit {c : Char} (h : Number.isDigit c = true) : IsXmlChar c := by
  obtain ⟨hlow, hhigh⟩ := Bool.and_eq_true_iff.mp h
  have hlow : 48 ≤ c.toNat := of_decide_eq_true hlow
  have hhigh : c.toNat ≤ 57 := of_decide_eq_true hhigh
  unfold IsXmlChar
  omega

theorem isXmlChar_toString (n : Nat) : Within IsXmlChar (toString n) := by
  intro c hc
  rw [Number.toList_toString] at hc
  exact isXmlChar_of_isDigit (Number.isDigit_of_mem_toDigits hc)

/-! ## 2. Stripping and cutting -/

theorem dropEndWhile_subset (p : Char → Bool) (cs : List Char) : dropEndWhile p cs ⊆ cs :=
  fun _ hc => List.mem_reverse.mp
    ((List.dropWhile_sublist p).mem (List.mem_reverse.mp hc))

theorem trim_subset (cs : List Char) : trim cs ⊆ cs :=
  List.Subset.trans (dropEndWhile_subset isBlank _) (List.dropWhile_sublist isBlank).subset

theorem dropReturn_subset (row : List Char) : dropReturn row ⊆ row := by
  rcases dropReturn_eq_or row with heq | heq
  · rw [heq]
    exact List.Subset.refl row
  · intro c hc
    rw [heq]
    exact List.mem_append_left _ hc

theorem subset_of_mem_lines {cs row : List Char} (h : row ∈ lines cs) : row ⊆ cs := by
  have hpiece : ∀ r ∈ (pieces cs).reverse, r ⊆ cs := fun r hr c hc =>
    (mem_of_mem_pieces (List.mem_reverse.mp hr) c hc).1
  unfold lines at h
  split at h
  · cases h
  · rename_i last ended hrows
    rw [hrows] at hpiece
    obtain ⟨hlast, hended⟩ := List.forall_mem_cons.mp hpiece
    have hwhole : row ∈ (ended.map dropReturn).reverse → row ⊆ cs := by
      intro hrow
      obtain ⟨r, hr, rfl⟩ := List.mem_map.mp (List.mem_reverse.mp hrow)
      exact List.Subset.trans (dropReturn_subset r) (hended r hr)
    dsimp only at h
    split at h
    · exact hwhole h
    · rcases List.mem_append.mp h with h | h
      · exact hwhole h
      · rwa [List.mem_singleton.mp h]

theorem firstLine_subset (cs : List Char) : firstLine cs ⊆ cs := by
  refine List.Subset.trans (trim_subset _) ?_
  cases hrows : lines cs with
  | nil => exact List.nil_subset cs
  | cons row rows =>
    have hrow : row ∈ lines cs := hrows ▸ List.mem_cons_self
    exact subset_of_mem_lines hrow

theorem dropHead_subset (head cs : List Char) : dropHead head cs ⊆ cs := by
  unfold dropHead
  split
  · exact (List.drop_sublist _ cs).subset
  · exact List.Subset.refl cs

theorem importPath_subset (cs : List Char) : importPath cs ⊆ cs := by
  have hfirst := List.Subset.trans (dropEndWhile_subset (· == ';') _) (firstLine_subset cs)
  have hrest := List.Subset.trans (dropHead_subset "import ".toList _)
    (List.Subset.trans (trim_subset _) hfirst)
  exact List.Subset.trans (trim_subset _) hrest

/-- A range of a text has characters of the text. -/
theorem Within.slice (h : Within P s) {start stop : Nat} (ht : slice s start stop = some t) :
    Within P t := by
  obtain ⟨a, c, rfl, -, -⟩ := slice_eq_some_iff.mp ht
  exact (within_append.mp (within_append.mp h).1).2

/-- What an error quotes has characters of the text that was skipped. -/
theorem Within.snippet (h : Within P s) : Within P (Syntax.snippet s) := by
  refine h.ofList_of_subset (List.Subset.trans (List.take_sublist _ _).subset ?_)
  cases hrow : ((lines s.toList).map trim).find? (!·.isEmpty) with
  | none => exact List.nil_subset _
  | some row =>
    obtain ⟨r, hr, rfl⟩ := List.mem_map.mp (List.mem_of_find?_eq_some hrow)
    exact List.Subset.trans (trim_subset r) (subset_of_mem_lines hr)

/-! ## 3. What is put into a text -/

theorem joinBreakPairs_sublist (cs : List Char) : (joinBreakPairs cs).Sublist cs := by
  fun_induction joinBreakPairs cs with
  | case1 rest ih => exact (ih.cons_cons '\n').cons '\r'
  | case2 c rest hpair ih => exact ih.cons_cons c
  | case3 => exact .slnil

/-- Where breaks are made uniform, line feeds are the only characters that are put in. -/
theorem mem_normalizeChars {cs : List Char} {c : Char} (h : c ∈ normalizeChars cs) :
    c ∈ cs ∨ c = '\n' := by
  obtain ⟨b, hb, rfl⟩ := List.mem_map.mp h
  unfold breakAtReturn
  split
  · exact Or.inr rfl
  · exact Or.inl ((List.dropWhile_sublist _).mem ((joinBreakPairs_sublist _).mem hb))

theorem mem_joined {rows : List (List Char)} {c : Char} (h : c ∈ joined rows) :
    (∃ row ∈ rows, c ∈ row) ∨ c = '\n' := by
  induction rows with
  | nil => cases h
  | cons row rows ih =>
    cases rows with
    | nil =>
      rw [joined, List.intercalate_singleton] at h
      exact Or.inl ⟨row, List.mem_singleton_self row, h⟩
    | cons next rest =>
      rw [joined, List.intercalate_cons_cons, ← joined, List.mem_append, List.mem_append] at h
      rcases h with (h | h) | h
      · exact Or.inl ⟨row, List.mem_cons_self, h⟩
      · exact Or.inr (List.mem_singleton.mp h)
      · refine (ih h).imp_left ?_
        rintro ⟨r, hr, hc⟩
        exact ⟨r, List.mem_cons_of_mem _ hr, hc⟩

/-- Where a text is moved left, line feeds are the only characters that are put in. -/
theorem mem_dedentChars {cs : List Char} {c : Char} (h : c ∈ dedentChars cs) :
    c ∈ cs ∨ c = '\n' := by
  unfold dedentChars at h
  dsimp only at h
  split at h
  · exact Or.inl h
  · refine (mem_joined h).imp_left ?_
    rintro ⟨left, hleft, hc⟩
    obtain ⟨row, hrow, rfl⟩ := List.mem_map.mp hleft
    refine (mem_of_mem_pieces hrow c ?_).1
    unfold shiftLeft at hc
    split at hc
    · cases hc
    · exact List.mem_of_mem_drop hc

section Put

variable (hP : ∀ c, IsXmlChar c → P c)
include hP

/-- What a document may have is in every class with the characters that it may have. -/
theorem within_word (h : Within IsXmlChar s) : Within P s := h.mono hP

theorem Within.normalize (h : Within P s) : Within P (normalize s) := by
  refine within_ofList.mpr fun c hc => ?_
  rcases mem_normalizeChars hc with hc | rfl
  · exact h c hc
  · exact hP _ (by decide)

theorem Within.dedent (h : Within P s) : Within P (dedent s) := by
  refine within_ofList.mpr fun c hc => ?_
  rcases mem_dedentChars hc with hc | rfl
  · exact h c hc
  · exact hP _ (by decide)

theorem Within.truncate (h : Within P s) (limit : Nat) : Within P (truncate limit s) := by
  refine within_ofList.mpr fun c hc => ?_
  unfold truncateChars at hc
  split at hc
  · exact h c hc
  · rcases List.mem_append.mp hc with hc | hc
    · exact h c (List.mem_of_mem_take hc)
    · have hdot : c = '.' := by simpa [ellipsis] using hc
      exact hP c (by rw [hdot]; decide)

theorem Within.wrap (h : Within P s) : Within P (Java.wrap s) :=
  within_append.mpr ⟨within_append.mpr ⟨within_word hP (by decide), h⟩,
    within_word hP (by decide)⟩

end Put

end CodeDiagram.Text
