/-
# How large a text may be

Two limits decide on the size of a text that is sent to the service: the one of the settings, which
is told with a reason, and the one on whole bodies, which comes first and gives none.  A text that
the settings allow is answered with its diagram, and one that is too long for them is told so,
exactly if the body that brings it is within its own limit (`answer_keepsSizes_iff`).  The settings
may allow more than fits into a body, as they do if nothing is set, so a text can be refused that
they allow (`answer_forgets_sizes`).
-/
import CodeDiagram.Proofs.Pipeline.Runs
import CodeDiagram.Proofs.Table
import CodeDiagram.Service.Routes

namespace CodeDiagram

/-! ## 1. Names -/

/-- A name of a language, or the one for telling the language by the text. -/
def Language.IsName (name : String) : Prop :=
  Text.lowerAscii (Text.trimmed name) ∈ ["auto", "python", "py", "java"]

/-- A name of a diagram. -/
def DiagramKind.IsName (name : String) : Prop :=
  Text.lowerAscii (Text.trimmed name) ∈ ["ast", "cfg", "ddg"]

/-- The names of languages are those that stand for one. -/
theorem Language.exists_resolve_iff {source name : String} :
    (∃ l, resolve source name = .ok l) ↔ IsName name := by
  have hauto : Text.lowerAscii "auto" = "auto" := by decide
  unfold resolve Text.sameAscii ofName IsName
  rw [hauto]
  generalize Text.lowerAscii (Text.trimmed name) = key
  by_cases h : key = "auto"
  · subst h
    simp
  · rw [if_neg (by simpa using h)]
    split <;> simp_all

/-- The names of diagrams are those that stand for one. -/
theorem DiagramKind.exists_ofName_iff {name : String} :
    (∃ k, ofName name = .ok k) ↔ IsName name := by
  unfold ofName IsName
  generalize Text.lowerAscii (Text.trimmed name) = key
  have hfound : (all.find? (·.name == key)).isSome = true ↔ key ∈ ["ast", "cfg", "ddg"] := by
    rw [List.find?_isSome]
    simp [all, DiagramKind.name, @eq_comm _ key]
  rw [← hfound]
  cases all.find? (·.name == key) with
  | none => simp
  | some k => simp

namespace Service

/-! ## 2. Bodies -/

/-- What the settings ask of a body: a text that is not blank and not too long, and names that
stand for something, if any. -/
structure IsServable (server : ServerSettings) (b : Body) : Prop where
  notBlank : Text.isBlankText b.code.toList = false
  size : b.code.utf8ByteSize ≤ server.maxSourceBytes
  language : ∀ name ∈ b.language, Language.IsName name
  diagram : ∀ name ∈ b.diagram, DiagramKind.IsName name

/-- The language that a body is read in: that of its name, or the likely one. -/
theorem exists_resolve_getD_iff {b : Body} :
    (∃ l, Language.resolve b.code (b.language.getD "auto") = .ok l) ↔
      ∀ name ∈ b.language, Language.IsName name := by
  rw [Language.exists_resolve_iff]
  cases b.language with
  | none => exact iff_of_true (List.mem_cons_self) (by simp)
  | some name => simp

/-- **A body is turned into a request** exactly if it is what the settings ask for. -/
theorem exists_validate_iff {server : ServerSettings} {b : Body} :
    (∃ request, validate server b = .ok request) ↔ IsServable server b := by
  unfold validate
  simp only [bind, Except.bind, pure, Except.pure, throw, throwThe, MonadExceptOf.throw]
  by_cases hblank : Text.isBlankText b.code.toList = true
  · refine iff_of_false (by simp [hblank]) fun h => ?_
    rw [h.notBlank] at hblank
    cases hblank
  by_cases hsize : b.code.utf8ByteSize > server.maxSourceBytes
  · exact iff_of_false (by simp [hblank, hsize]) fun h => absurd h.size (Nat.not_le.mpr hsize)
  -- what is left are the names
  have hnames : IsServable server b ↔ (∀ name ∈ b.language, Language.IsName name) ∧
      ∀ name ∈ b.diagram, DiagramKind.IsName name :=
    ⟨fun h => ⟨h.language, h.diagram⟩,
      fun h => ⟨by simpa using hblank, Nat.not_lt.mp hsize, h.1, h.2⟩⟩
  rw [if_neg hblank, if_neg hsize, hnames, ← exists_resolve_getD_iff]
  cases Language.resolve b.code (b.language.getD "auto") with
  | error e => simp [Except.mapError]
  | ok l =>
    cases b.diagram with
    | none => simp [Except.mapError]
    | some name =>
      simp only [Option.mem_def, Option.some.injEq, forall_eq', ← DiagramKind.exists_ofName_iff]
      cases DiagramKind.ofName name with
      | error e => simp [Except.mapError]
      | ok k => simp [Except.mapError]

/-! ## 3. Answers -/

section Answers

variable {p : Pipeline} {r : Request} {b : Body}

/-- With a front end for every language, whatever is turned into a request is drawn. -/
theorem exists_execute_iff (hfull : ∀ l, l ∈ p.registry.frontEnds.map (·.1)) :
    (∃ v stats, execute p b = .ok (v, stats)) ↔ IsServable p.settings.server b := by
  rw [← exists_validate_iff]
  constructor
  · rintro ⟨v, stats, h⟩
    cases hrequest : validate p.settings.server b with
    | error e =>
      rw [execute, hrequest] at h
      cases h
    | ok request => exact ⟨request, rfl⟩
  · rintro ⟨request, hrequest⟩
    obtain ⟨fe, hfe⟩ := Option.isSome_iff_exists.mp
      (lookup_isSome_iff_mem.mpr (hfull request.language))
    have hfind : p.registry.find request.language = .ok fe := by rw [Registry.find, hfe]
    obtain ⟨v, hv, -⟩ := Pipeline.run_of_find p request hfind
    refine ⟨v, CodeStats.collect fe (p.grammar request.language) request.source, ?_⟩
    rw [execute, hrequest]
    simp only [bind, Except.bind, hv, Except.mapError, Pipeline.codeStats, hfind]
    rfl

/-- The answer to a body that was read. -/
theorem answer_diagram (hmethod : r.method = "POST") (hpath : r.path = "/api/visualize")
    (hjson : r.contentType.any MediaType.isJson = true) (hbody : Body.parse r.body = .ok b) :
    answer p r =
      if r.body.utf8ByteSize > bodyLimit then ⟨413, .plain⟩
      else
        match execute p b with
        | .error e => e.response
        | .ok (v, stats) => ok (dataContent v stats) := by
  have hresource : resource? r.path = some (.diagram dataContent) := by rw [hpath]; rfl
  rw [answer, if_neg (by simp [hmethod]), hresource]
  simp only [hmethod, if_true, post, hjson, hbody]
  rfl

/-- The limit of the settings holds for a body: what they ask for is answered with a diagram, and a
text that is too long for them is told so. -/
structure KeepsSizes (p : Pipeline) (r : Request) (b : Body) : Prop where
  served : IsServable p.settings.server b → (answer p r).status = 200
  told : p.settings.server.maxSourceBytes < b.code.utf8ByteSize →
    ∃ reason, answer p r = ⟨400, .json (.obj [("error", .str reason)])⟩

/-- **The limit of the settings holds for the bodies within the other limit**, and for those that
they neither ask for nor find too long.  Within it every body is answered with a diagram or a
reason; beyond it none is. -/
theorem answer_keepsSizes_iff (hfull : ∀ l, l ∈ p.registry.frontEnds.map (·.1))
    (hmethod : r.method = "POST") (hpath : r.path = "/api/visualize")
    (hjson : r.contentType.any MediaType.isJson = true) (hbody : Body.parse r.body = .ok b) :
    (r.body.utf8ByteSize ≤ bodyLimit →
      (IsServable p.settings.server b ∧ ∃ v stats, answer p r = ok (dataContent v stats)) ∨
        ¬ IsServable p.settings.server b ∧ ∃ fault : BodyFault, answer p r = fault.response) ∧
    (bodyLimit < r.body.utf8ByteSize → answer p r = ⟨413, .plain⟩) ∧
    (KeepsSizes p r b ↔ r.body.utf8ByteSize ≤ bodyLimit ∨
      ¬ IsServable p.settings.server b ∧
        b.code.utf8ByteSize ≤ p.settings.server.maxSourceBytes) := by
  have hanswer := answer_diagram (p := p) hmethod hpath hjson hbody
  have hwithin : r.body.utf8ByteSize ≤ bodyLimit →
      (IsServable p.settings.server b ∧ ∃ v stats, answer p r = ok (dataContent v stats)) ∨
        ¬ IsServable p.settings.server b ∧ ∃ fault : BodyFault, answer p r = fault.response := by
    intro hle
    rw [hanswer, if_neg (Nat.not_lt.mpr hle), ← exists_execute_iff hfull]
    cases execute p b with
    | error e => exact Or.inr ⟨by simp, e, rfl⟩
    | ok found => exact Or.inl ⟨⟨found.1, found.2, rfl⟩, found.1, found.2, rfl⟩
  have hbeyond : bodyLimit < r.body.utf8ByteSize → answer p r = ⟨413, .plain⟩ := by
    intro hlt
    rw [hanswer, if_pos hlt]
  refine ⟨hwithin, hbeyond, ?_⟩
  rcases Nat.lt_or_ge bodyLimit r.body.utf8ByteSize with hlt | hle
  · rw [or_iff_right (Nat.not_le.mpr hlt)]
    constructor
    · intro h
      refine ⟨fun hservable => ?_, Nat.not_lt.mp fun hlong => ?_⟩
      · have := h.served hservable
        rw [hbeyond hlt] at this
        cases this
      · obtain ⟨reason, hreason⟩ := h.told hlong
        rw [hbeyond hlt] at hreason
        cases hreason
    · rintro ⟨hnot, hfits⟩
      exact ⟨fun h => absurd h hnot, fun h => absurd hfits (Nat.not_le.mpr h)⟩
  · refine iff_of_true ?_ (Or.inl hle)
    rcases hwithin hle with ⟨hservable, v, stats, h⟩ | ⟨hnot, fault, h⟩
    · exact ⟨fun _ => by rw [h]; rfl, fun hlong => absurd hservable.size (Nat.not_le.mpr hlong)⟩
    · exact ⟨fun hservable => absurd hservable hnot, fun _ => ⟨_, h⟩⟩

end Answers

/-! ## 4. Long texts -/

section Reading

open Json

variable {d d' : Body.Draft} {cs rest : List Char} {key v : String}

/-- A string is what its pieces make. -/
theorem stringTail_of_units (units : List StringUnit) {text : List Char}
    (hunits : stringUnits cs = some (units, rest)) (htext : joinUnits units = some text) :
    stringTail cs = .ok (String.ofList text, rest) := by
  rw [stringTail, hunits]
  simp only [htext]

theorem stringUnits_replicate (n : Nat) (rest : List Char) :
    stringUnits (List.replicate n 'a' ++ '"' :: rest) =
      some (List.replicate n (.char 'a'), rest) := by
  induction n with
  | zero => rfl
  | succ n ih =>
    rw [List.replicate_succ, List.cons_append, stringUnits, ih]
    · rfl
    all_goals simp

theorem joinUnits_replicate (n : Nat) :
    joinUnits (List.replicate n (.char 'a')) = some (List.replicate n 'a') := by
  induction n with
  | zero => rfl
  | succ n ih =>
    rw [List.replicate_succ, joinUnits, ih]
    rfl

/-- The text of a body. -/
theorem field_code (hnew : d.code = none) (hv : stringTail cs = .ok (v, rest)) :
    Body.field d "code" (':' :: '"' :: cs) = .ok ({ d with code := some v }, rest) := by
  have hcolon : skipSpace (':' :: '"' :: cs) = ':' :: '"' :: cs := rfl
  have hquote : skipSpace ('"' :: cs) = '"' :: cs := rfl
  simp only [Body.field, Body.fresh, hnew, Body.afterColon, hcolon, Body.text, hquote, hv]
  rfl

/-- A text is read where there may be none. -/
theorem optional_text (hv : stringTail cs = .ok (v, rest)) :
    Body.optional Body.text ('"' :: cs) = .ok (some v, rest) := by
  have hquote : skipSpace ('"' :: cs) = '"' :: cs := rfl
  have hread : Body.text ('"' :: cs) = .ok (v, rest) := by simp only [Body.text, hquote, hv]
  have hsome : Body.optional Body.text ('"' :: cs) =
      (Body.text ('"' :: cs)).map fun found => (some found.1, found.2) := rfl
  rw [hsome, hread]
  rfl

/-- The language of a body. -/
theorem field_language (hnew : d.language = none) (hv : stringTail cs = .ok (v, rest)) :
    Body.field d "language" (':' :: '"' :: cs) =
      .ok ({ d with language := some (some v) }, rest) := by
  have hcolon : skipSpace (':' :: '"' :: cs) = ':' :: '"' :: cs := rfl
  simp only [Body.field, Body.fresh, hnew, Body.afterColon, hcolon, optional_text hv]
  rfl

/-- A member with others behind it. -/
theorem membersWithin_more {turns : Nat} {more : List Char} (hkey : stringTail cs = .ok (key, rest))
    (hfield : Body.field d key rest = .ok (d', ',' :: more)) :
    Body.membersWithin d (turns + 1) ('"' :: cs) = Body.membersWithin d' turns more := by
  have hquote : skipSpace ('"' :: cs) = '"' :: cs := rfl
  have hcomma : skipSpace (',' :: more) = ',' :: more := rfl
  simp only [Body.membersWithin, hquote, hkey, bind, Except.bind, hfield, hcomma]

/-- The last member. -/
theorem membersWithin_last {turns : Nat} {more : List Char} (hkey : stringTail cs = .ok (key, rest))
    (hfield : Body.field d key rest = .ok (d', '\x7d' :: more)) :
    Body.membersWithin d (turns + 1) ('"' :: cs) = .ok (d', more) := by
  have hquote : skipSpace ('"' :: cs) = '"' :: cs := rfl
  have hbrace : skipSpace ('\x7d' :: more) = '\x7d' :: more := rfl
  simp only [Body.membersWithin, hquote, hkey, bind, Except.bind, hfield, hbrace]
  rfl

/-- An object whose members were read is read. -/
theorem parse_of_members {s : String} {b : Body} (hs : s.toList = '\x7b' :: '"' :: cs)
    (hmembers : Body.membersWithin {} (('"' :: cs).length + 1) ('"' :: cs) = .ok (d, []))
    (hd : d.finish = .ok b) : Body.parse s = .ok b := by
  have hobject : Body.objectTail ('"' :: cs) = .ok (b, []) := by
    change Except.bind (Body.membersWithin {} (('"' :: cs).length + 1) ('"' :: cs))
      (fun found => found.1.finish.bind fun b => .ok (b, found.2)) = _
    rw [hmembers, Except.bind, hd]
    rfl
  have hbrace : skipSpace ('\x7b' :: '"' :: cs) = '\x7b' :: '"' :: cs := rfl
  unfold Body.parse
  simp only [hs, hbrace, hobject, bind, Except.bind]
  rfl

end Reading

/-- A text of `n` letters. -/
def letters (n : Nat) : String := String.ofList (List.replicate n 'a')

/-- A body with a text of `n` letters. -/
def lettersBody (n : Nat) : String :=
  "\x7b\"code\":\"" ++ letters n ++ "\",\"language\":\"python\"\x7d"

theorem toList_lettersBody (n : Nat) :
    (lettersBody n).toList = '\x7b' :: '"' :: 'c' :: 'o' :: 'd' :: 'e' :: '"' :: ':' :: '"' ::
      (List.replicate n 'a' ++ '"' :: ',' :: '"' :: 'l' :: 'a' :: 'n' :: 'g' :: 'u' :: 'a' ::
        'g' :: 'e' :: '"' :: ':' :: '"' :: 'p' :: 'y' :: 't' :: 'h' :: 'o' :: 'n' ::
        '"' :: '\x7d' :: []) := by
  simp only [lettersBody, letters, String.toList_append, String.toList_ofList, List.append_assoc]
  rfl

theorem parse_lettersBody (n : Nat) :
    Body.parse (lettersBody n) = .ok { code := letters n, language := some "python" } := by
  have hcode : ∀ cs, Json.stringTail ('c' :: 'o' :: 'd' :: 'e' :: '"' :: cs) = .ok ("code", cs) :=
    fun _ => stringTail_of_units (['c', 'o', 'd', 'e'].map .char) rfl rfl
  have hlanguage : ∀ cs, Json.stringTail ('l' :: 'a' :: 'n' :: 'g' :: 'u' :: 'a' :: 'g' :: 'e' ::
      '"' :: cs) = .ok ("language", cs) :=
    fun _ => stringTail_of_units (['l', 'a', 'n', 'g', 'u', 'a', 'g', 'e'].map .char) rfl rfl
  have hpython : ∀ cs, Json.stringTail ('p' :: 'y' :: 't' :: 'h' :: 'o' :: 'n' :: '"' :: cs) =
      .ok ("python", cs) :=
    fun _ => stringTail_of_units (['p', 'y', 't', 'h', 'o', 'n'].map .char) rfl rfl
  have hletters : ∀ cs, Json.stringTail (List.replicate n 'a' ++ '"' :: cs) = .ok (letters n, cs) :=
    fun cs => stringTail_of_units _ (stringUnits_replicate n cs) (joinUnits_replicate n)
  refine parse_of_members (d := { code := some (letters n), language := some (some "python") })
    (toList_lettersBody n) ?_ rfl
  rw [membersWithin_more (hcode _) (field_code rfl (hletters _))]
  exact membersWithin_last (hlanguage _) (field_language rfl (hpython _))

theorem utf8ByteSize_letters (n : Nat) : (letters n).utf8ByteSize = n := by
  induction n with
  | zero => rfl
  | succ n ih =>
    have hpush : letters (n + 1) = (letters n).push 'a' := by
      rw [letters, List.replicate_succ', String.ofList_append, String.push_eq_append]
      rfl
    rw [hpush, String.utf8ByteSize_push, ih]
    rfl

theorem utf8ByteSize_lettersBody (n : Nat) : (lettersBody n).utf8ByteSize = n + 31 := by
  rw [lettersBody, String.utf8ByteSize_append, String.utf8ByteSize_append, utf8ByteSize_letters,
    Nat.add_right_comm, Nat.add_comm]
  rfl

/-- A text of letters is what the settings ask for if it is not too long. -/
theorem isServable_letters {server : ServerSettings} {n : Nat} (hn : n ≠ 0)
    (hsize : n ≤ server.maxSourceBytes) :
    IsServable server { code := letters n, language := some "python" } where
  notBlank := by
    obtain ⟨m, rfl⟩ := Nat.exists_eq_succ_of_ne_zero hn
    rw [letters, String.toList_ofList, List.replicate_succ]
    rfl
  size := by rwa [utf8ByteSize_letters]
  language := by
    rintro name ⟨⟩
    unfold Language.IsName
    decide
  diagram := by simp

/-- A request for the diagram of a text of `n` letters. -/
def lettersRequest (n : Nat) : Request where
  method := "POST"
  target := "/api/visualize"
  body := lettersBody n

/-- A service with a limit, whose grammars read nothing. -/
def limited (limit : Nat) : Pipeline where
  settings := { server := { maxSourceBytes := limit } }
  grammar _ text := .unread text

@[simp] theorem registry_limited (limit : Nat) : (limited limit).registry = .builtIn := rfl

theorem mem_registry_limited (limit : Nat) (l : Language) :
    l ∈ (limited limit).registry.frontEnds.map (·.1) := by
  rw [registry_limited]
  cases l <;> decide

/-- A short text is answered, or told to be too long. -/
theorem answer_keepsSizes_iff_letters :
    Body.parse (lettersRequest 5).body = .ok { code := letters 5, language := some "python" } ∧
      (answer (limited 5) (lettersRequest 5)).status = 200 ∧
      (answer (limited 4) (lettersRequest 5)).status = 400 := by
  have hbody := parse_lettersBody 5
  have hsize : (lettersRequest 5).body.utf8ByteSize ≤ bodyLimit := by
    rw [lettersRequest, utf8ByteSize_lettersBody]
    decide
  have hkeeps := fun limit => ((answer_keepsSizes_iff (p := limited limit) (r := lettersRequest 5)
    (mem_registry_limited limit) rfl (by decide +kernel) (by decide +kernel) hbody).2.2).mpr
      (Or.inl hsize)
  refine ⟨hbody, (hkeeps 5).served (isServable_letters (by decide) (by decide)), ?_⟩
  obtain ⟨reason, hreason⟩ := (hkeeps 4).told (by rw [utf8ByteSize_letters]; decide)
  rw [hreason]

/-- A text as long as the limit on bodies is refused without a reason: by the settings that are in
place if nothing is set, which allow it, and by settings that do not. -/
theorem answer_forgets_sizes :
    let r := lettersRequest bodyLimit
    let b : Body := { code := letters bodyLimit, language := some "python" }
    Body.parse r.body = .ok b ∧
      IsServable {} b ∧ answer (limited 16777216) r = ⟨413, .plain⟩ ∧
      ¬ KeepsSizes (limited 16777216) r b ∧
      1000 < b.code.utf8ByteSize ∧ answer (limited 1000) r = ⟨413, .plain⟩ ∧
      ¬ KeepsSizes (limited 1000) r b := by
  intro r b
  have hbody : Body.parse r.body = .ok b := parse_lettersBody bodyLimit
  have hlarge : bodyLimit < r.body.utf8ByteSize := by
    have hsize : r.body.utf8ByteSize = bodyLimit + 31 := utf8ByteSize_lettersBody bodyLimit
    omega
  have hanswer : ∀ limit, answer (limited limit) r = ⟨413, .plain⟩ := by
    intro limit
    rw [answer_diagram rfl (by decide +kernel) (by decide +kernel) hbody, if_pos hlarge]
  have hservable : IsServable {} b := isServable_letters (by decide) (by decide)
  have hlong : 1000 < b.code.utf8ByteSize := by
    rw [utf8ByteSize_letters]
    decide
  refine ⟨hbody, hservable, hanswer _, fun h => ?_, hlong, hanswer _, fun h => ?_⟩
  · have := h.served hservable
    rw [hanswer] at this
    cases this
  · obtain ⟨reason, hreason⟩ := h.told hlong
    rw [hanswer] at hreason
    cases hreason

end Service

end CodeDiagram
