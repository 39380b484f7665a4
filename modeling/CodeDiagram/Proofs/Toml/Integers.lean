/-
# Integers of a TOML text

No integer of a text is larger than sixty-three bits allow: `integer?` is the only place where one
is made, and tables are put together from what is read (`isBounded_of_parse`).

`Entry.IsBounded` is the invariant.  A reader keeps it if the reader of the values inside does, so
it goes up with the levels of `valueWithin`.
-/
import CodeDiagram.Toml.Printer
import CodeDiagram.Toml.Reader

namespace CodeDiagram.Toml

/-! ## 1. Scalars -/

/-- An integer is not too large. -/
def Scalar.IsBounded : Scalar → Prop
  | .int n => n < integerBound
  | _ => True

theorem lt_of_integer {n m : Int} (h : integer? n = some m) : m < integerBound := by
  simp only [integer?, Option.ite_none_right_eq_some, Bool.and_eq_true, decide_eq_true_eq] at h
  obtain ⟨⟨-, high⟩, same⟩ := h
  rw [← Option.some.inj same]
  exact high

theorem bounded_of_basedTail {base : Nat} {cs rest : List Char} {v : Scalar}
    (h : basedTail base cs = some (v, rest)) : v.IsBounded := by
  simp only [basedTail, bind, Option.bind_eq_some_iff] at h
  obtain ⟨⟨ds, rest'⟩, -, n, isInt, same⟩ := h
  cases same
  exact lt_of_integer isInt

theorem bounded_of_decimalTail {negative : Bool} {cs rest : List Char} {v : Scalar}
    (h : decimalTail negative cs = some (v, rest)) : v.IsBounded := by
  simp only [decimalTail, bind, Option.bind_eq_some_iff] at h
  obtain ⟨⟨whole, rest'⟩, -, h⟩ := h
  dsimp only at h
  split at h
  · simp only [Option.bind_eq_some_iff] at h
    obtain ⟨⟨fraction, rest⟩, -, ⟨power, rest⟩, -, h⟩ := h
    dsimp only at h
    split at h
    · cases h
    · cases h
      trivial
  · simp only [Option.bind_eq_some_iff] at h
    obtain ⟨n, isInt, same⟩ := h
    cases same
    exact lt_of_integer isInt

theorem bounded_of_number {cs rest : List Char} {v : Scalar} (h : number cs = some (v, rest)) :
    v.IsBounded := by
  rw [number.eq_def] at h
  split at h
  · exact bounded_of_basedTail h
  · exact bounded_of_basedTail h
  · exact bounded_of_basedTail h
  · dsimp only at h
    split at h
    · next found special =>
      cases h
      rw [specialTail.eq_def] at special
      split at special <;> cases special <;> trivial
    · exact bounded_of_decimalTail h

theorem bounded_of_scalar {cs rest : List Char} {v : Scalar} (h : scalar cs = some (v, rest)) :
    v.IsBounded := by
  simp only [scalar] at h
  split at h
  · obtain ⟨_, -, same⟩ := Option.map_eq_some_iff.mp h
    cases same
    trivial
  · obtain ⟨_, -, same⟩ := Option.map_eq_some_iff.mp h
    cases same
    trivial
  · cases h
    trivial
  · cases h
    trivial
  · split at h
    · simp only [bind, Option.bind_eq_some_iff] at h
      obtain ⟨_, -, _, -, same⟩ := h
      cases same
      trivial
    · split at h
      · simp only [bind, Option.bind_eq_some_iff] at h
        obtain ⟨_, -, same⟩ := h
        cases same
        trivial
      · exact bounded_of_number h

/-! ## 2. Tables -/

/-- No integer in an entry is too large. -/
inductive Entry.IsBounded : Entry → Prop
  | scalar {v : Scalar} (h : v.IsBounded) : IsBounded (.scalar v)
  | array {items : List Entry} (h : ∀ e ∈ items, IsBounded e) : IsBounded (.array items)
  | inline {es : List (String × Entry)} (h : ∀ p ∈ es, IsBounded p.2) : IsBounded (.inline es)
  | table {origin : Origin} {es : List (String × Entry)} (h : ∀ p ∈ es, IsBounded p.2) :
      IsBounded (.table origin es)
  | tables {all : List (List (String × Entry))} (h : ∀ es ∈ all, ∀ p ∈ es, IsBounded p.2) :
      IsBounded (.tables all)

namespace Entries

/-- No integer in a table is too large. -/
def IsBounded (es : Entries) : Prop := ∀ p ∈ es, p.2.IsBounded

theorem isBounded_nil : IsBounded [] := fun _ h => absurd h List.not_mem_nil

theorem IsBounded.lookup {es : Entries} (h : es.IsBounded) {key : String} {e : Entry}
    (there : es.lookup key = some e) : e.IsBounded := by
  induction es with
  | nil => cases there
  | cons p es ih =>
    rw [List.lookup_cons] at there
    split at there
    · cases there
      exact h p List.mem_cons_self
    · exact ih (fun q hq => h q (List.mem_cons_of_mem p hq)) there

theorem IsBounded.put {es : Entries} (h : es.IsBounded) {e : Entry} (he : e.IsBounded)
    (key : String) : (es.put key e).IsBounded := by
  induction es with
  | nil => simpa [Entries.put, IsBounded] using he
  | cons p es ih =>
    have rest := ih fun q hq => h q (List.mem_cons_of_mem p hq)
    unfold Entries.put
    split
    · rintro q (_ | ⟨_, hq⟩)
      · exact he
      · exact h q (List.mem_cons_of_mem p hq)
    · rintro q (_ | ⟨_, hq⟩)
      · exact h p List.mem_cons_self
      · exact rest q hq

/-- The last of several tables in place of which another is put. -/
theorem isBounded_concat {all : List Entries} (h : ∀ es ∈ all, es.IsBounded) {es : Entries}
    (hes : es.IsBounded) : Entry.IsBounded (.tables (all.dropLast ++ [es])) := by
  refine .tables fun es' hes' => ?_
  rcases List.mem_append.mp hes' with old | new
  · exact h es' ((List.dropLast_sublist all).subset old)
  · rw [List.mem_singleton.mp new]
    exact hes

theorem IsBounded.assign {es es' : Entries} (h : es.IsBounded) {e : Entry} (he : e.IsBounded)
    {key : String} {keys : List String} (assigned : Entries.assign e key keys es = some es') :
    es'.IsBounded := by
  induction keys generalizing key es es' with
  | nil =>
    simp only [Entries.assign] at assigned
    split at assigned
    · cases assigned
    · cases assigned
      exact h.put he key
  | cons next keys ih =>
    simp only [Entries.assign] at assigned
    split at assigned
    · obtain ⟨below, hbelow, rfl⟩ := Option.map_eq_some_iff.mp assigned
      exact h.put (.table (ih isBounded_nil hbelow)) key
    · next old there =>
      obtain ⟨below, hbelow, rfl⟩ := Option.map_eq_some_iff.mp assigned
      cases h.lookup there with
      | table hold => exact h.put (.table (ih hold hbelow)) key
    · next old there =>
      split at assigned
      · cases assigned
      · obtain ⟨below, hbelow, rfl⟩ := Option.map_eq_some_iff.mp assigned
        cases h.lookup there with
        | table hold => exact h.put (.table (ih hold hbelow)) key
    · next all there =>
      split at assigned
      · cases assigned
      · simp only [bind, Option.bind_eq_some_iff] at assigned
        obtain ⟨last, isLast, below, hbelow, same⟩ := assigned
        cases same
        cases h.lookup there with
        | tables hall =>
          have hlast := hall last (List.mem_of_getLast? isLast)
          exact h.put (isBounded_concat hall (ih hlast hbelow)) key
    · cases assigned

theorem IsBounded.assignAll {es es' : Entries} (h : es.IsBounded) {ps : List Pair}
    (hps : ∀ p ∈ ps, p.entry.IsBounded) (assigned : Entries.assignAll es ps = some es') :
    es'.IsBounded := by
  induction ps generalizing es with
  | nil =>
    cases assigned
    exact h
  | cons p ps ih =>
    simp only [Entries.assignAll, List.foldlM_cons, bind, Option.bind_eq_some_iff] at assigned
    obtain ⟨first, hfirst, rest⟩ := assigned
    refine ih ?_ (fun q hq => hps q (List.mem_cons_of_mem p hq)) rest
    unfold assignPair at hfirst
    split at hfirst
    · cases hfirst
    · exact h.assign (hps p List.mem_cons_self) hfirst

theorem isBounded_opened {s : Section} (hs : ∀ p ∈ s.pairs, p.entry.IsBounded) {old : Option Entry}
    (hold : ∀ e, old = some e → e.IsBounded) {e : Entry} (he : opened s old = some e) :
    e.IsBounded := by
  unfold opened at he
  split at he
  · obtain ⟨es, hes, rfl⟩ := Option.map_eq_some_iff.mp he
    have := isBounded_nil.assignAll hs hes
    split
    · exact .tables fun es' hes' => List.mem_singleton.mp hes' ▸ this
    · exact .table this
  · split at he
    · cases he
    · obtain ⟨es, hes, rfl⟩ := Option.map_eq_some_iff.mp he
      cases hold _ rfl with
      | table before => exact .table (IsBounded.assignAll before hs hes)
  · split at he
    · obtain ⟨es, hes, rfl⟩ := Option.map_eq_some_iff.mp he
      have added := isBounded_nil.assignAll hs hes
      cases hold _ rfl with
      | tables before =>
        refine .tables fun es' hes' => ?_
        rcases List.mem_append.mp hes' with there | new
        · exact before es' there
        · exact List.mem_singleton.mp new ▸ added
    · cases he
  · cases he

theorem IsBounded.openAt {s : Section} (hs : ∀ p ∈ s.pairs, p.entry.IsBounded)
    {keys : List String} {es es' : Entries} (h : es.IsBounded)
    (opened : Entries.openAt s keys es = some es') : es'.IsBounded := by
  induction keys generalizing es es' with
  | nil => cases opened
  | cons key keys ih =>
    rw [Entries.openAt.eq_def] at opened
    split at opened
    · cases opened
    · next same =>
      obtain ⟨rfl, rfl⟩ := List.cons.inj same
      obtain ⟨e, he, rfl⟩ := Option.map_eq_some_iff.mp opened
      exact h.put (isBounded_opened hs (fun _ there => h.lookup there) he) key
    · next same =>
      obtain ⟨rfl, rfl⟩ := List.cons.inj same
      split at opened
      · obtain ⟨below, hbelow, rfl⟩ := Option.map_eq_some_iff.mp opened
        exact h.put (.table (ih isBounded_nil hbelow)) key
      · next there =>
        obtain ⟨below, hbelow, rfl⟩ := Option.map_eq_some_iff.mp opened
        cases h.lookup there with
        | table hold => exact h.put (.table (ih hold hbelow)) key
      · next there =>
        simp only [bind, Option.bind_eq_some_iff] at opened
        obtain ⟨last, isLast, below, hbelow, same⟩ := opened
        cases same
        cases h.lookup there with
        | tables hall =>
          have inside := ih (hall last (List.mem_of_getLast? isLast)) hbelow
          exact h.put (isBounded_concat hall inside) key
      · cases opened

theorem isBounded_ofSections {pairs : List Pair} {sections : List Section}
    (hpairs : ∀ p ∈ pairs, p.entry.IsBounded)
    (hsections : ∀ s ∈ sections, ∀ p ∈ s.pairs, p.entry.IsBounded) {es : Entries}
    (h : ofSections? pairs sections = some es) : es.IsBounded := by
  simp only [ofSections?, bind, Option.bind_eq_some_iff] at h
  obtain ⟨start, hstart, h⟩ := h
  have first := isBounded_nil.assignAll hpairs hstart
  clear hstart
  induction sections generalizing start with
  | nil =>
    cases h
    exact first
  | cons s sections ih =>
    simp only [List.foldlM_cons, bind, Option.bind_eq_some_iff] at h
    obtain ⟨next, hnext, h⟩ := h
    exact ih (fun s' hs' => hsections s' (List.mem_cons_of_mem s hs')) next h
      (first.openAt (hsections s List.mem_cons_self) hnext)

end Entries

/-! ## 3. Readers -/

/-- A reader takes only what has no integer too large. -/
def KeepsBound (value : Reader Entry) : Prop :=
  ∀ cs e rest, value cs = some (e, rest) → e.IsBounded

theorem isBounded_of_itemsWithin {value : Reader Entry} (keeps : KeepsBound value) {turns : Nat}
    {cs rest : List Char} {items : List Entry}
    (h : itemsWithin value turns cs = some (items, rest)) : ∀ e ∈ items, e.IsBounded := by
  induction turns generalizing cs items rest with
  | zero => cases h
  | succ turns ih =>
    unfold itemsWithin at h
    split at h
    · cases h
      exact fun _ he => absurd he List.not_mem_nil
    · simp only [bind, Option.bind_eq_some_iff] at h
      obtain ⟨⟨v, after⟩, hv, h⟩ := h
      dsimp only at h
      split at h
      · obtain ⟨⟨vs, last⟩, hvs, same⟩ := Option.bind_eq_some_iff.mp h
        cases same
        rintro e (_ | ⟨_, he⟩)
        · exact keeps _ _ _ hv
        · exact ih hvs e he
      · cases h
        rintro e (_ | ⟨_, he⟩)
        · exact keeps _ _ _ hv
        · cases he
      · cases h

theorem isBounded_of_pair {value : Reader Entry} (keeps : KeepsBound value) {cs rest : List Char}
    {p : Entries.Pair} (h : pair value cs = some (p, rest)) : p.entry.IsBounded := by
  simp only [pair, bind, Option.bind_eq_some_iff] at h
  obtain ⟨⟨keys, after⟩, -, h⟩ := h
  dsimp only at h
  split at h
  · obtain ⟨⟨e, last⟩, he, same⟩ := Option.bind_eq_some_iff.mp h
    cases same
    exact keeps _ _ _ he
  · cases h

theorem isBounded_of_pairsWithin {value : Reader Entry} (keeps : KeepsBound value) {turns : Nat}
    {cs rest : List Char} {ps : List Entries.Pair}
    (h : pairsWithin value turns cs = some (ps, rest)) : ∀ p ∈ ps, p.entry.IsBounded := by
  induction turns generalizing cs ps rest with
  | zero => cases h
  | succ turns ih =>
    simp only [pairsWithin, bind, Option.bind_eq_some_iff] at h
    obtain ⟨⟨p, after⟩, hp, h⟩ := h
    have first := isBounded_of_pair keeps hp
    dsimp only at h
    split at h
    · obtain ⟨⟨qs, last⟩, hqs, same⟩ := Option.bind_eq_some_iff.mp h
      cases same
      rintro q (_ | ⟨_, hq⟩)
      · exact first
      · exact ih hqs q hq
    · cases h
      rintro q (_ | ⟨_, hq⟩)
      · exact first
      · cases hq
    · cases h

/-- Each level of values keeps the bound that the one inside keeps. -/
theorem keepsBound_valueWithin (depth : Nat) : KeepsBound (valueWithin depth) := by
  have ofScalar {cs rest : List Char} {e : Entry}
      (h : ((scalar cs).map fun p => (Entry.scalar p.1, p.2)) = some (e, rest)) :
      e.IsBounded := by
    obtain ⟨⟨v, after⟩, hv, same⟩ := Option.map_eq_some_iff.mp h
    cases same
    exact .scalar (bounded_of_scalar hv)
  induction depth with
  | zero => exact fun cs e rest h => ofScalar h
  | succ depth keeps =>
    intro cs e rest h
    unfold valueWithin at h
    split at h
    · obtain ⟨⟨vs, after⟩, hvs, same⟩ := Option.map_eq_some_iff.mp h
      cases same
      exact .array (isBounded_of_itemsWithin keeps hvs)
    · unfold inlineTail at h
      split at h
      · cases h
        exact .inline Entries.isBounded_nil
      · simp only [bind, Option.bind_eq_some_iff] at h
        obtain ⟨⟨ps, after⟩, hps, es, hes, same⟩ := h
        cases same
        exact .inline (Entries.isBounded_nil.assignAll (isBounded_of_pairsWithin keeps hps) hes)
    · exact ofScalar h

/-! ## 4. Texts -/

/-- No integer on a line is too large. -/
def Line.IsBounded : Line → Prop
  | .pair p => p.entry.IsBounded
  | _ => True

theorem isBounded_of_lineHead {cs rest : List Char} {line : Line}
    (h : lineHead cs = some (line, rest)) : line.IsBounded := by
  unfold lineHead at h
  split at h
  case h_1 =>
    unfold headerTail at h
    split at h
    all_goals
      simp only [bind, Option.bind_eq_some_iff] at h
      obtain ⟨⟨keys, after⟩, -, h⟩ := h
      dsimp only at h
      split at h <;> cases h
      trivial
  case h_6 =>
    obtain ⟨⟨p, after⟩, hp, same⟩ := Option.map_eq_some_iff.mp h
    cases same
    exact isBounded_of_pair (keepsBound_valueWithin deepest) hp
  -- an empty line
  all_goals
    cases h
    trivial

theorem isBounded_of_linesWithin {turns : Nat} {cs : List Char} {lines : List Line}
    (h : linesWithin turns cs = some lines) : ∀ line ∈ lines, line.IsBounded := by
  induction turns generalizing cs lines with
  | zero =>
    cases h
    exact fun _ hl => absurd hl List.not_mem_nil
  | succ turns ih =>
    unfold linesWithin at h
    split at h
    · cases h
      exact fun _ hl => absurd hl List.not_mem_nil
    · simp only [bind, Option.bind_eq_some_iff] at h
      obtain ⟨⟨line, after⟩, hline, cs', -, rest, hrest, same⟩ := h
      cases same
      rintro l (_ | ⟨_, hl⟩)
      · exact isBounded_of_lineHead hline
      · exact ih hrest l hl

theorem isBounded_sections {lines : List Line} (h : ∀ line ∈ lines, line.IsBounded) :
    (∀ p ∈ (sections lines).1, p.entry.IsBounded) ∧
      ∀ s ∈ (sections lines).2, ∀ p ∈ s.pairs, p.entry.IsBounded := by
  induction lines with
  | nil => exact ⟨fun _ hp => absurd hp List.not_mem_nil, fun _ hs => absurd hs List.not_mem_nil⟩
  | cons line lines ih =>
    obtain ⟨pairs, opened⟩ := ih fun l hl => h l (List.mem_cons_of_mem line hl)
    have first := h line List.mem_cons_self
    cases line with
    | blank => exact ⟨pairs, opened⟩
    | pair p =>
      refine ⟨?_, opened⟩
      rintro q (_ | ⟨_, hq⟩)
      · exact first
      · exact pairs q hq
    | header keys repeated =>
      refine ⟨fun _ hp => absurd hp List.not_mem_nil, ?_⟩
      rintro s (_ | ⟨_, hs⟩)
      · exact pairs
      · exact opened s hs

/-- **No integer of a text is larger than sixty-three bits allow.** -/
theorem isBounded_of_parse {s : String} {es : Entries} (h : parse s = some es) : es.IsBounded := by
  simp only [parse, bind, Option.bind_eq_some_iff] at h
  obtain ⟨lines, hlines, h⟩ := h
  obtain ⟨pairs, opened⟩ := isBounded_sections (isBounded_of_linesWithin hlines)
  exact Entries.isBounded_ofSections pairs opened h

end CodeDiagram.Toml
