/-
# Registering front ends

What a registry answers after any front ends have been added to an empty one, in the order given
(`Registry.ofList`).  A language has the front end that came last for it (`inPlace?`), and an ending
goes to the language of the front end that came last with it (`lastFor?`).  Endings are never taken
back, so the two may part: an ending may outlive the front end it came with.  A registry is faithful
to the front ends in place exactly when no ending has (`isFaithful_ofList_iff`).

None outlives its front end where only the front ends of the two languages are added, in any order
and any number of times, and then the three ways to look an ending up agree, although each has its
own notion of lower case (`extension_lookups_agree`).
-/
import CodeDiagram.FrontEnd.Registry
import CodeDiagram.Proofs.Table
import CodeDiagram.Proofs.Text.Lowering
import Mathlib.Data.List.Induction

namespace CodeDiagram

/-- The endings of a front end as a registry keeps them. -/
def FrontEnd.endings (fe : FrontEnd) : List String := fe.extensions.map Text.lower

namespace Registry

/-! ## 1. Putting an entry into a table -/

section Put

variable {α β : Type} [BEq α] [LawfulBEq α]

/-- A look-up of another key does not see that a key has been taken out. -/
theorem lookup_filter_bne {key k : α} (h : (k == key) = false) (table : List (α × β)) :
    (table.filter (·.1 != key)).lookup k = table.lookup k := by
  induction table with
  | nil => rfl
  | cons entry table ih =>
    obtain ⟨first, value⟩ := entry
    rw [List.filter_cons, List.lookup_cons]
    cases hfirst : first != key with
    | true =>
      rw [if_pos rfl, List.lookup_cons, ih]
    | false =>
      have heq : first = key := by simpa using hfirst
      rw [if_neg Bool.false_ne_true, ih, heq, h]

/-- A look-up finds the entry that was put in, and no other one has changed. -/
theorem lookup_put (key : α) (value : β) (table : List (α × β)) (k : α) :
    (put key value table).lookup k = if k == key then some value else table.lookup k := by
  rw [put, List.lookup_cons]
  cases h : k == key with
  | true => rfl
  | false => exact lookup_filter_bne h table

/-- The keys of a table stay different. -/
theorem nodup_put (key : α) (value : β) {table : List (α × β)}
    (h : (table.map (·.1)).Nodup) : ((put key value table).map (·.1)).Nodup := by
  rw [put, List.map_cons, List.nodup_cons]
  constructor
  · intro hkey
    obtain ⟨entry, hentry, rfl⟩ := List.mem_map.mp hkey
    exact absurd (List.mem_filter.mp hentry).2 (by simp)
  · exact h.sublist (List.filter_sublist.map _)

end Put

/-! ## 2. One front end more -/

/-- The registry after front ends have been added to an empty one. -/
def ofList (fes : List FrontEnd) : Registry := fes.foldl register empty

/-- The last front end of a list is added last. -/
theorem ofList_concat (fes : List FrontEnd) (fe : FrontEnd) :
    ofList (fes ++ [fe]) = (ofList fes).register fe := by
  rw [ofList, List.foldl_append]
  rfl

/-- The language of a front end has it afterwards. -/
theorem lookup_frontEnds_register (r : Registry) (fe : FrontEnd) (l : Language) :
    (r.register fe).frontEnds.lookup l =
      if l == fe.language then some fe else r.frontEnds.lookup l :=
  lookup_put ..

/-- The endings of a front end go to its language afterwards. -/
theorem lookup_extensions_register (r : Registry) (fe : FrontEnd) (key : String) :
    (r.register fe).extensions.lookup key =
      if key ∈ fe.endings then some fe.language else r.extensions.lookup key := by
  rw [register, FrontEnd.endings]
  dsimp only
  generalize r.extensions = table
  induction fe.extensions generalizing table with
  | nil => simp
  | cons e es ih =>
    rw [List.foldl_cons, ih, lookup_put, List.map_cons]
    simp only [List.mem_cons, beq_iff_eq]
    by_cases hes : key ∈ es.map Text.lower <;> by_cases he : key = Text.lower e <;> simp [hes, he]

/-- No ending is kept twice. -/
theorem nodup_extensions_register {r : Registry} (h : (r.extensions.map (·.1)).Nodup)
    (fe : FrontEnd) : ((r.register fe).extensions.map (·.1)).Nodup := by
  rw [register]
  dsimp only
  generalize r.extensions = table at h
  induction fe.extensions generalizing table with
  | nil => exact h
  | cons e es ih => exact ih _ (nodup_put _ _ h)

/-- No language is kept twice. -/
theorem nodup_frontEnds_register {r : Registry} (h : (r.frontEnds.map (·.1)).Nodup)
    (fe : FrontEnd) : ((r.register fe).frontEnds.map (·.1)).Nodup :=
  nodup_put _ _ h

/-! ## 3. Any number of front ends -/

/-- The front end that comes last for a language. -/
def inPlace? (fes : List FrontEnd) (l : Language) : Option FrontEnd :=
  fes.reverse.find? (·.language == l)

/-- The front end that comes last with an ending. -/
def lastFor? (fes : List FrontEnd) (key : String) : Option FrontEnd :=
  fes.reverse.find? (key ∈ ·.endings)

/-- A language has the front end that came last for it. -/
theorem lookup_frontEnds_ofList (fes : List FrontEnd) (l : Language) :
    (ofList fes).frontEnds.lookup l = inPlace? fes l := by
  induction fes using List.reverseRecOn with
  | nil => rfl
  | append_singleton fes fe ih =>
    rw [ofList_concat, lookup_frontEnds_register, ih, inPlace?, inPlace?, List.reverse_concat,
      List.find?_cons, BEq.comm]
    cases fe.language == l with
    | true => rfl
    | false => rfl

/-- An ending goes to the language of the front end that came last with it. -/
theorem lookup_extensions_ofList (fes : List FrontEnd) (key : String) :
    (ofList fes).extensions.lookup key = (lastFor? fes key).map (·.language) := by
  induction fes using List.reverseRecOn with
  | nil => rfl
  | append_singleton fes fe ih =>
    rw [ofList_concat, lookup_extensions_register, ih, lastFor?, lastFor?, List.reverse_concat,
      List.find?_cons]
    by_cases hkey : key ∈ fe.endings
    · rw [if_pos hkey, decide_eq_true hkey]
      rfl
    · rw [if_neg hkey, decide_eq_false hkey]

/-- No ending is kept twice. -/
theorem nodup_extensions_ofList (fes : List FrontEnd) :
    ((ofList fes).extensions.map (·.1)).Nodup := by
  induction fes using List.reverseRecOn with
  | nil => exact List.nodup_nil
  | append_singleton fes fe ih =>
    rw [ofList_concat]
    exact nodup_extensions_register ih fe

/-- No language is kept twice. -/
theorem nodup_frontEnds_ofList (fes : List FrontEnd) :
    ((ofList fes).frontEnds.map (·.1)).Nodup := by
  induction fes using List.reverseRecOn with
  | nil => exact List.nodup_nil
  | append_singleton fes fe ih =>
    rw [ofList_concat]
    exact nodup_frontEnds_register ih fe

/-- The language of a front end of the list has one in place. -/
theorem isSome_inPlace? {fes : List FrontEnd} {fe : FrontEnd} (h : fe ∈ fes) :
    (inPlace? fes fe.language).isSome = true :=
  List.find?_isSome.mpr ⟨fe, List.mem_reverse.mpr h, beq_self_eq_true _⟩

/-- A front end in place is one of the list, and for its language. -/
theorem mem_of_inPlace? {fes : List FrontEnd} {fe : FrontEnd} {l : Language}
    (h : inPlace? fes l = some fe) : fe ∈ fes ∧ fe.language = l :=
  ⟨List.mem_reverse.mp (List.mem_of_find?_eq_some h), by simpa using List.find?_some h⟩

/-- The last front end with an ending is one of the list, and has the ending. -/
theorem mem_of_lastFor? {fes : List FrontEnd} {fe : FrontEnd} {key : String}
    (h : lastFor? fes key = some fe) : fe ∈ fes ∧ key ∈ fe.endings :=
  ⟨List.mem_reverse.mp (List.mem_of_find?_eq_some h), by simpa using List.find?_some h⟩

/-- Some front end of the list has an ending exactly when one of them is the last with it. -/
theorem isSome_lastFor?_iff {fes : List FrontEnd} {key : String} :
    (lastFor? fes key).isSome = true ↔ ∃ fe ∈ fes, key ∈ fe.endings := by
  simp only [lastFor?, List.find?_isSome, List.mem_reverse, decide_eq_true_eq]

/-! ## 4. What the registry answers -/

/-- **The front end for an ending is the one in place for the language of the last front end that
came with the ending.** -/
theorem findByExtension?_ofList (fes : List FrontEnd) (e : String) :
    (ofList fes).findByExtension? e =
      (lastFor? fes (Text.lower e)).bind fun fe => inPlace? fes fe.language := by
  rw [findByExtension?, lookup_extensions_ofList, Option.bind_map]
  congr
  funext fe
  exact lookup_frontEnds_ofList fes fe.language

/-- **An ending can be read exactly when there is a front end for it.** -/
theorem canParse_ofList (fes : List FrontEnd) (e : String) :
    (ofList fes).canParse e = ((ofList fes).findByExtension? e).isSome := by
  rw [canParse, findByExtension?_ofList, lookup_extensions_ofList, Option.isSome_map]
  cases hlast : lastFor? fes (Text.lower e) with
  | none => rfl
  | some fe => exact (isSome_inPlace? (mem_of_lastFor? hlast).1).symm

/-- The endings that can be read are those of all front ends that were ever added. -/
theorem mem_supportedExtensions_ofList {fes : List FrontEnd} {key : String} :
    key ∈ (ofList fes).supportedExtensions ↔ ∃ fe ∈ fes, key ∈ fe.endings := by
  rw [supportedExtensions, List.mem_mergeSort, ← lookup_isSome_iff_mem, lookup_extensions_ofList,
    Option.isSome_map, isSome_lastFor?_iff]

/-- They are listed in ascending order, each of them once. -/
theorem pairwise_supportedExtensions_ofList (fes : List FrontEnd) :
    (ofList fes).supportedExtensions.Pairwise (· < ·) := by
  have hsorted : (ofList fes).supportedExtensions.Pairwise fun a b => (!(b < a)) = true := by
    refine List.pairwise_mergeSort (fun a b c hab hbc => ?_) (fun a b => ?_) _
    · simp only [Bool.not_eq_true', decide_eq_false_iff_not, String.not_lt] at hab hbc ⊢
      exact String.le_trans hab hbc
    · simp only [Bool.or_eq_true, Bool.not_eq_true', decide_eq_false_iff_not, String.not_lt]
      exact String.le_total a b
  have hdistinct : (ofList fes).supportedExtensions.Nodup :=
    (List.mergeSort_perm _ _).nodup_iff.mpr (nodup_extensions_ofList fes)
  refine hsorted.imp₂ (fun a b hab hne => ?_) hdistinct
  simp only [Bool.not_eq_true', decide_eq_false_iff_not] at hab
  exact Decidable.byContradiction fun hlt =>
    hne (String.le_antisymm (String.not_lt.mp hab) (String.not_lt.mp hlt))

/-- The front ends of the registry are those in place. -/
theorem mem_frontEnds_ofList {fes : List FrontEnd} {l : Language} {fe : FrontEnd} :
    (l, fe) ∈ (ofList fes).frontEnds ↔ inPlace? fes l = some fe := by
  rw [← lookup_eq_some_iff_mem (nodup_frontEnds_ofList fes), lookup_frontEnds_ofList]

/-! ## 5. Endings that outlive their front end -/

/-- A registry that speaks of its endings as the front ends in it do. -/
structure IsFaithful (r : Registry) : Prop where
  /-- The front end for an ending has that ending. -/
  mem_endings : ∀ e fe, r.findByExtension? e = some fe → Text.lower e ∈ fe.endings
  /-- An ending can be read exactly when there is a front end for it. -/
  canParse_eq : ∀ e, r.canParse e = (r.findByExtension? e).isSome
  /-- The endings are listed in ascending order, each of them once. -/
  pairwise : r.supportedExtensions.Pairwise (· < ·)
  /-- The endings listed are those of the front ends in the registry. -/
  mem_supportedExtensions :
    ∀ key, key ∈ r.supportedExtensions ↔ ∃ entry ∈ r.frontEnds, key ∈ entry.2.endings

/-- An ending whose last front end has given its place to one without the ending. -/
def Outlived (fes : List FrontEnd) (key : String) : Prop :=
  ∃ before fe after, fes = before ++ fe :: after ∧ key ∈ fe.endings ∧
    (∀ g ∈ after, key ∉ g.endings) ∧ ∃ g ∈ after, g.language = fe.language

/-- An ending is outlived when it leads to a front end that does not have it. -/
theorem outlived_iff {fes : List FrontEnd} {key : String} :
    Outlived fes key ↔ ∃ fe g, lastFor? fes key = some fe ∧
      inPlace? fes fe.language = some g ∧ key ∉ g.endings := by
  constructor
  · rintro ⟨before, fe, after, rfl, hkey, hafter, g, hg, hlanguage⟩
    have hlast : lastFor? (before ++ fe :: after) key = some fe := by
      refine List.find?_eq_some_iff_append.mpr
        ⟨decide_eq_true hkey, after.reverse, before.reverse, by simp, fun h hh => ?_⟩
      rw [decide_eq_false (hafter h (List.mem_reverse.mp hh))]
      rfl
    have hfound : (inPlace? after fe.language).isSome = true := hlanguage ▸ isSome_inPlace? hg
    obtain ⟨h, hh⟩ := Option.isSome_iff_exists.mp hfound
    refine ⟨fe, h, hlast, ?_, hafter h (mem_of_inPlace? hh).1⟩
    rw [inPlace?, List.reverse_append, List.reverse_cons, List.find?_append, List.find?_append]
    rw [inPlace?] at hh
    rw [hh]
    rfl
  · rintro ⟨fe, g, hlast, hplace, hg⟩
    obtain ⟨hkey, newer, older, hsplit, hnewer⟩ := List.find?_eq_some_iff_append.mp hlast
    have hfe : key ∈ fe.endings := of_decide_eq_true hkey
    refine ⟨older.reverse, fe, newer.reverse, ?_, hfe, fun h hh => ?_, g, ?_, ?_⟩
    · rw [← List.reverse_reverse fes, hsplit]
      simp
    · simpa using hnewer h (List.mem_reverse.mp hh)
    · -- `g` is not `fe`, which has the ending, so it was found before `fe` was reached
      rw [inPlace?, hsplit, List.find?_append] at hplace
      cases hfound : newer.find? (·.language == fe.language) with
      | some h =>
        rw [hfound, Option.some_or, Option.some.injEq] at hplace
        exact List.mem_reverse.mpr (hplace ▸ List.mem_of_find?_eq_some hfound)
      | none =>
        rw [hfound, Option.none_or, List.find?_cons, beq_self_eq_true, Option.some.injEq] at hplace
        exact absurd (hplace ▸ hfe) hg
    · exact (mem_of_inPlace? hplace).2

/-- **A registry is faithful to its front ends exactly when no ending has outlived its own.** -/
theorem isFaithful_ofList_iff (fes : List FrontEnd) :
    IsFaithful (ofList fes) ↔ ∀ key, ¬ Outlived fes key := by
  constructor
  · intro h key hkey
    obtain ⟨fe, g, hlast, hplace, hg⟩ := outlived_iff.mp hkey
    obtain ⟨e, -, rfl⟩ := List.mem_map.mp (mem_of_lastFor? hlast).2
    refine hg (h.mem_endings e g ?_)
    rw [findByExtension?_ofList, hlast]
    exact hplace
  · intro h
    have hstays : ∀ {key fe g}, lastFor? fes key = some fe →
        inPlace? fes fe.language = some g → key ∈ g.endings := fun hlast hplace =>
      Decidable.byContradiction fun hg => h _ (outlived_iff.mpr ⟨_, _, hlast, hplace, hg⟩)
    refine ⟨fun e g hfind => ?_, canParse_ofList fes, pairwise_supportedExtensions_ofList fes,
      fun key => ?_⟩
    · rw [findByExtension?_ofList] at hfind
      obtain ⟨fe, hlast, hplace⟩ := Option.bind_eq_some_iff.mp hfind
      exact hstays hlast hplace
    · rw [mem_supportedExtensions_ofList]
      constructor
      · intro hkey
        obtain ⟨fe, hlast⟩ := Option.isSome_iff_exists.mp (isSome_lastFor?_iff.mpr hkey)
        obtain ⟨g, hplace⟩ :=
          Option.isSome_iff_exists.mp (isSome_inPlace? (mem_of_lastFor? hlast).1)
        exact ⟨(fe.language, g), mem_frontEnds_ofList.mpr hplace, hstays hlast hplace⟩
      · rintro ⟨⟨l, g⟩, hg, hkey⟩
        exact ⟨g, (mem_of_inPlace? (mem_frontEnds_ofList.mp hg)).1, hkey⟩

/-- A front end that gives its place to one without some of its endings leaves them behind. -/
theorem not_isFaithful_of_replaced (fes : List FrontEnd) {fe g : FrontEnd} {key : String}
    (hkey : key ∈ fe.endings) (hg : key ∉ g.endings) (hlanguage : g.language = fe.language) :
    ¬ IsFaithful (ofList (fes ++ [fe, g])) := fun h =>
  (isFaithful_ofList_iff _).mp h key
    ⟨fes, fe, [g], rfl, hkey, fun _ hh => List.mem_singleton.mp hh ▸ hg, g,
      List.mem_singleton_self g, hlanguage⟩

/-- Files in `py` still lead to a front end that has given that ending up. -/
example : ¬ IsFaithful (ofList [Python.frontEnd, { Python.frontEnd with extensions := ["pyw"] }]) :=
  have hkey : "py" ∈ Python.frontEnd.endings := by decide
  have hg : "py" ∉ FrontEnd.endings { Python.frontEnd with extensions := ["pyw"] } := by decide
  not_isFaithful_of_replaced [] hkey hg rfl

end Registry

/-! ## 6. The front ends of the two languages -/

/-- A language has the front end of its name. -/
theorem Language.language_frontEnd (l : Language) : l.frontEnd.language = l := by
  cases l with
  | python => rfl
  | java => rfl

/-- Every language is listed. -/
theorem Language.mem_all (l : Language) : l ∈ Language.all := by
  cases l with
  | python => decide
  | java => decide

/-- The endings of every language are plain words in lower case. -/
theorem Language.plain_extensions (l : Language) :
    ∀ x ∈ l.frontEnd.extensions,
      x.toList.all Text.isPlain = true ∧ Text.lower x = x ∧ Text.lowerAscii x = x := by
  cases l with
  | python => decide
  | java => decide

/-- An ending belongs to the language whose front end declares it. -/
theorem Language.ofExtension_eq_some_iff (e : String) (l : Language) :
    Language.ofExtension e = some l ↔ Text.lowerAscii e ∈ l.frontEnd.extensions := by
  rw [Language.ofExtension]
  cases l with
  | python =>
    rw [Language.frontEnd_python, Python.frontEnd_extensions]
    split <;> simp_all
  | java =>
    rw [Language.frontEnd_java, Java.frontEnd_extensions]
    split <;> simp_all

/-- It belongs to the same language where the letters of every script are lowered. -/
theorem Language.lower_mem_endings_iff (e : String) (l : Language) :
    Text.lower e ∈ l.frontEnd.endings ↔ Language.ofExtension e = some l := by
  rw [Language.ofExtension_eq_some_iff, FrontEnd.endings, List.mem_map]
  constructor
  · rintro ⟨x, hx, hlower⟩
    obtain ⟨hplain, hself, -⟩ := l.plain_extensions x hx
    rw [(Text.lower_eq_iff hplain e).mp (hlower.symm.trans hself)]
    exact hx
  · intro hx
    obtain ⟨hplain, hself, -⟩ := l.plain_extensions _ hx
    exact ⟨_, hx, hself.trans ((Text.lower_eq_iff hplain e).mpr rfl).symm⟩

/-- A front end reads the files of an ending exactly when the ending belongs to its language. -/
theorem Language.canParse_frontEnd_iff (e : String) (l : Language) :
    l.frontEnd.canParse e = true ↔ Language.ofExtension e = some l := by
  rw [Language.ofExtension_eq_some_iff, FrontEnd.canParse, List.any_eq_true]
  simp only [Text.sameAscii, beq_iff_eq]
  constructor
  · rintro ⟨x, hx, hsame⟩
    rw [← hsame, (l.plain_extensions x hx).2.2]
    exact hx
  · intro hx
    exact ⟨_, hx, (l.plain_extensions _ hx).2.2⟩

namespace Registry

/-- Whatever front ends of the two languages are added, none gives its place to another one. -/
theorem isFaithful_ofList_map (ls : List Language) :
    IsFaithful (ofList (ls.map Language.frontEnd)) := by
  refine (isFaithful_ofList_iff _).mpr fun key => ?_
  rintro ⟨before, fe, after, hsplit, hkey, hafter, g, hg, hlanguage⟩
  have hall : ∀ h ∈ before ++ fe :: after, ∃ l : Language, l.frontEnd = h := fun h hh => by
    obtain ⟨l, -, hl⟩ := List.mem_map.mp (hsplit ▸ hh)
    exact ⟨l, hl⟩
  obtain ⟨l, rfl⟩ := hall fe (by simp)
  obtain ⟨m, rfl⟩ := hall g (by simp [hg])
  rw [l.language_frontEnd, m.language_frontEnd] at hlanguage
  exact hafter _ hg (hlanguage ▸ hkey)

/-- An ending can be read exactly when it belongs to one of the languages that have been added. -/
theorem canParse_ofList_map (ls : List Language) (e : String) :
    (ofList (ls.map Language.frontEnd)).canParse e = true ↔
      ∃ l ∈ ls, Language.ofExtension e = some l := by
  rw [canParse, lookup_extensions_ofList, Option.isSome_map, isSome_lastFor?_iff]
  simp only [List.mem_map, exists_exists_and_eq_and, Language.lower_mem_endings_iff]

/-- The front end for an ending is that of the language it belongs to, if it has been added. -/
theorem findByExtension?_ofList_map_eq_some_iff {ls : List Language} {e : String} {fe : FrontEnd} :
    (ofList (ls.map Language.frontEnd)).findByExtension? e = some fe ↔
      ∃ l ∈ ls, Language.ofExtension e = some l ∧ l.frontEnd = fe := by
  have hsound : ∀ {g}, (ofList (ls.map Language.frontEnd)).findByExtension? e = some g →
      ∃ l ∈ ls, Language.ofExtension e = some l ∧ l.frontEnd = g := fun hfind => by
    have hkey := (isFaithful_ofList_map ls).mem_endings e _ hfind
    rw [findByExtension?_ofList] at hfind
    obtain ⟨_, _, hplace⟩ := Option.bind_eq_some_iff.mp hfind
    obtain ⟨l, hl, rfl⟩ := List.mem_map.mp (mem_of_inPlace? hplace).1
    exact ⟨l, hl, (Language.lower_mem_endings_iff e l).mp hkey, rfl⟩
  constructor
  · exact hsound
  · rintro ⟨l, hl, he, rfl⟩
    have hread := (canParse_ofList_map ls e).mpr ⟨l, hl, he⟩
    rw [canParse_ofList] at hread
    obtain ⟨g, hg⟩ := Option.isSome_iff_exists.mp hread
    obtain ⟨m, -, hm, rfl⟩ := hsound hg
    rw [hg, Option.some.inj (he.symm.trans hm)]

/-- The registry of all front ends is that of all languages. -/
theorem builtIn_eq_ofList : builtIn = ofList (Language.all.map Language.frontEnd) := by
  rw [ofList, List.foldl_map]
  rfl

/-- **All ways to look an ending up agree, in letters of any script**, whichever of the front ends
have been added and however often. -/
theorem extension_lookups_agree (ls : List Language) (e : String) :
    (ofList (ls.map Language.frontEnd)).findByExtension? e =
        ((Language.ofExtension e).filter (· ∈ ls)).map Language.frontEnd ∧
      (ofList (ls.map Language.frontEnd)).canParse e =
        ((Language.ofExtension e).filter (· ∈ ls)).isSome ∧
      builtIn.findByExtension? e = (Language.ofExtension e).map Language.frontEnd ∧
      builtIn.canParse e = (Language.ofExtension e).isSome ∧
      ∀ l : Language, l.frontEnd.canParse e = decide (Language.ofExtension e = some l) := by
  have hfind : ∀ ls : List Language, (ofList (ls.map Language.frontEnd)).findByExtension? e =
      ((Language.ofExtension e).filter (· ∈ ls)).map Language.frontEnd := fun ls => by
    ext fe
    rw [findByExtension?_ofList_map_eq_some_iff]
    simp [Option.filter_eq_some_iff, and_comm, and_left_comm]
  have hread : ∀ ls : List Language, (ofList (ls.map Language.frontEnd)).canParse e =
      ((Language.ofExtension e).filter (· ∈ ls)).isSome := fun ls => by
    rw [canParse_ofList, hfind, Option.isSome_map]
  have hall : (Language.ofExtension e).filter (· ∈ Language.all) = Language.ofExtension e := by
    cases Language.ofExtension e with
    | none => rfl
    | some l => rw [Option.filter_some, if_pos (decide_eq_true l.mem_all)]
  refine ⟨hfind ls, hread ls, ?_, ?_, fun l => ?_⟩
  · rw [builtIn_eq_ofList, hfind, hall]
  · rw [builtIn_eq_ofList, hread, hall]
  · rw [Bool.eq_iff_iff, decide_eq_true_eq]
    exact Language.canParse_frontEnd_iff e l

end Registry

end CodeDiagram
