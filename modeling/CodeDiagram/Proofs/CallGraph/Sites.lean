/-
# Where calls stand

`CallGraph.follow` hands the scope of a node down to the nodes inside it and links every call that
it meets.  This file takes the two things apart: `FrontEnd.sitesAmong` lists the calls of some
trees, and following the trees links the listed calls one after the other (`follow_eq_foldl`).

A call is listed when a path leads to it (`mem_sitesAmong`), and the scope that was handed down to
it is that of the innermost function around it (`foldl_scopeAt`).
-/
import CodeDiagram.Diagram.CallGraph
import CodeDiagram.Proofs.Syntax.Paths

namespace CodeDiagram

open Syntax

/-! ## 1. What is around a node -/

/-- The nodes that a path passes before it ends, the outermost first. -/
def Syntax.Node.around (n : Node) : List Nat → List Node
  | [] => []
  | i :: path => n :: (n.namedChildren[i]?.map (·.around path)).getD []

/-- The innermost function around what stands at a path. -/
def FrontEnd.enclosing? (fe : FrontEnd) (n : Node) (path : List Nat) : Option Node :=
  (n.around path).reverse.find? fun m => (fe.classify m.kind).isFunction

/-- The scope that a node stands in, given the innermost function around it. -/
def Scope.of (d : Document) (outside : Scope) : Option Node → Scope
  | some f => .inside (d.declaredName f).toOption
  | none => outside

variable {fe : FrontEnd} {d : Document}

theorem Syntax.Node.around_cons {n c : Node} {i : Nat} (h : n.namedChildren[i]? = some c)
    (path : List Nat) : n.around (i :: path) = n :: c.around path := by
  rw [around, h]
  rfl

/-- **The scope that is handed down is that of the innermost function.** -/
theorem foldl_scopeAt (fe : FrontEnd) (d : Document) (scope : Scope) (ns : List Node) :
    ns.foldl (fe.scopeAt d) scope =
      Scope.of d scope (ns.reverse.find? fun m => (fe.classify m.kind).isFunction) := by
  rw [← List.foldr_reverse]
  -- from the innermost node outwards
  induction ns.reverse with
  | nil => rfl
  | cons n ns ih =>
    rw [List.foldr_cons, ih, List.find?_cons, FrontEnd.scopeAt]
    cases (fe.classify n.kind).isFunction with
    | true => rfl
    | false => rfl

/-- A call is not a function, so it stands in the scope that was handed down to it. -/
theorem callSite?_scopeAt {scope : Scope} {n : Node} {site : CallSite} :
    fe.callSite? d (fe.scopeAt d scope n) n = some site ↔
      fe.classify n.kind = .call ∧ site = ⟨scope, fe.calleeName d n⟩ := by
  unfold FrontEnd.callSite?
  split
  · rename_i hcall
    have hno : (fe.classify n.kind).isFunction = false := by rw [hcall]; rfl
    rw [FrontEnd.scopeAt, hno, if_neg Bool.false_ne_true, Option.some.injEq]
    exact ⟨fun h => ⟨hcall, h.symm⟩, fun h => h.2.symm⟩
  · rename_i hcall
    exact ⟨fun h => (Option.some_ne_none _ h.symm).elim, fun h => absurd h.1 hcall⟩

/-! ## 2. All calls -/

/-- The calls at some nodes and inside them, in document order. -/
def FrontEnd.sitesAmong (fe : FrontEnd) (d : Document) : List (Scope × Node) → List CallSite
  | [] => []
  | (scope, n) :: rest =>
    (fe.callSite? d (fe.scopeAt d scope n) n).toList ++
      fe.sitesAmong d (n.namedChildren.map (fe.scopeAt d scope n, ·) ++ rest)
termination_by places => Node.sizes (places.map (·.2))
decreasing_by exact CallGraph.sizes_inside_lt ..

/-- **Following some trees links their calls, one after the other.** -/
theorem CallGraph.follow_eq_foldl (c : CallGraph) (places : List (Scope × Node)) :
    c.follow fe d places = (fe.sitesAmong d places).foldl link c := by
  induction places using FrontEnd.sitesAmong.induct fe d generalizing c with
  | case1 => rw [follow, FrontEnd.sitesAmong, List.foldl_nil]
  | case2 scope n rest ih =>
    rw [follow, FrontEnd.sitesAmong, List.foldl_append, ih, linkAt]
    cases fe.callSite? d (fe.scopeAt d scope n) n with
    | none => rfl
    | some site => rfl

/-- A listed call is one that a path leads to, with the scope that was handed down the path. -/
theorem mem_sitesAmong {places : List (Scope × Node)} {site : CallSite} :
    site ∈ fe.sitesAmong d places ↔ ∃ x ∈ places, ∃ (p : List Nat) (m : Node),
      x.2.at? p = some m ∧ fe.classify m.kind = .call ∧
        site = ⟨(x.2.around p).foldl (fe.scopeAt d) x.1, fe.calleeName d m⟩ := by
  induction places using FrontEnd.sitesAmong.induct fe d with
  | case1 =>
    rw [FrontEnd.sitesAmong]
    simp
  | case2 scope n rest ih =>
    rw [FrontEnd.sitesAmong, List.mem_append, ih, Option.mem_toList,
      callSite?_scopeAt]
    constructor
    · rintro (⟨hcall, rfl⟩ | ⟨x, hx, p, m, hm, hcall, rfl⟩)
      · exact ⟨(scope, n), List.mem_cons_self, [], n, rfl, hcall, rfl⟩
      · rcases List.mem_append.mp hx with hx | hx
        · obtain ⟨c, hc, rfl⟩ := List.mem_map.mp hx
          obtain ⟨i, hi⟩ := List.mem_iff_getElem?.mp hc
          refine ⟨(scope, n), List.mem_cons_self, i :: p, m, ?_, hcall, ?_⟩
          · rw [Node.at?_cons, hi]
            exact hm
          · rw [Node.around_cons hi]
            rfl
        · exact ⟨x, List.mem_cons_of_mem _ hx, p, m, hm, hcall, rfl⟩
    · rintro ⟨x, hx, p, m, hm, hcall, rfl⟩
      rcases List.mem_cons.mp hx with rfl | hx
      · cases p with
        | nil =>
          obtain rfl : n = m := Option.some.inj hm
          exact Or.inl ⟨hcall, rfl⟩
        | cons i p =>
          obtain ⟨c, hc, hcm⟩ := Option.bind_eq_some_iff.mp hm
          refine Or.inr ⟨(fe.scopeAt d scope n, c), ?_, p, m, hcm, hcall, ?_⟩
          · exact List.mem_append_left _ (List.mem_map_of_mem (List.mem_of_getElem? hc))
          · rw [Node.around_cons hc]
            rfl
      · exact Or.inr ⟨x, List.mem_append_right _ hx, p, m, hm, hcall, rfl⟩

/-- The calls of a document are those that a path from its root leads to, each in the scope of the
innermost function around it. -/
theorem mem_sitesAmong_root {site : CallSite} :
    site ∈ fe.sitesAmong d [(.outermost, d.root)] ↔ ∃ (p : List Nat) (m : Node),
      d.root.at? p = some m ∧ fe.classify m.kind = .call ∧
        site = ⟨Scope.of d .outermost (fe.enclosing? d.root p), fe.calleeName d m⟩ := by
  rw [mem_sitesAmong]
  simp only [List.mem_singleton, exists_eq_left, foldl_scopeAt]
  rfl

end CodeDiagram
