/-
# Levels

The height of a level falls from the scale at level zero to its opposite at the deepest one
(`levelHeight_exact`), so deeper levels are strictly lower.  In an outline the level of a node is
its depth in the document, and an edge leads one level down: over exact numbers every node lies
strictly above the nodes inside it, and no point moves sideways (`ranked_onLevels`).
-/
import CodeDiagram.Layout.Placement
import CodeDiagram.Proofs.Layout.Exact
import CodeDiagram.Proofs.Outline.Shape
import Mathlib.Algebra.Order.Field.Basic
import Mathlib.Tactic.Positivity
import Mathlib.Tactic.Ring

namespace CodeDiagram.Placement

open Outline Syntax

/-! ## 1. Heights -/

section

variable (tiny scale : ℚ)

theorem levelHeight_exact (deepest depth : Nat) :
    @levelHeight ℚ (.exact tiny) scale deepest depth = scale - 2 * scale * depth / deepest := rfl

/-- Level zero is at the top. -/
theorem levelHeight_zero (deepest : Nat) :
    @levelHeight ℚ (.exact tiny) scale deepest 0 = scale := by
  simp [levelHeight_exact]

/-- The deepest level is at the bottom. -/
theorem levelHeight_self {deepest : Nat} (hdeepest : 0 < deepest) :
    @levelHeight ℚ (.exact tiny) scale deepest deepest = -scale := by
  have hne : (deepest : ℚ) ≠ 0 := by positivity
  rw [levelHeight_exact, mul_div_cancel_right₀ _ hne]
  ring

/-- Deeper is lower. -/
theorem levelHeight_lt {scale : ℚ} (hscale : 0 < scale) {deepest m n : Nat}
    (hdeepest : 0 < deepest) (hlt : m < n) :
    letI := Coordinate.exact tiny
    levelHeight scale deepest n < levelHeight scale deepest m := by
  have hpos : (0 : ℚ) < deepest := by positivity
  have hcast : (m : ℚ) < n := by exact_mod_cast hlt
  rw [levelHeight_exact, levelHeight_exact]
  gcongr

/-- No level is above the top or below the bottom. -/
theorem levelHeight_mem_Icc {scale : ℚ} (hscale : 0 < scale) {deepest n : Nat}
    (hdeepest : 0 < deepest) (hle : n ≤ deepest) :
    @levelHeight ℚ (.exact tiny) scale deepest n ∈ Set.Icc (-scale) scale := by
  have hanti : StrictAnti (@levelHeight ℚ (.exact tiny) scale deepest) :=
    fun _ _ hlt => levelHeight_lt tiny hscale hdeepest hlt
  rw [← levelHeight_self tiny scale hdeepest]
  refine ⟨hanti.antitone hle, ?_⟩
  exact (hanti.antitone (Nat.zero_le n)).trans_eq (levelHeight_zero tiny scale deepest)

end

/-! ## 2. Points on their levels -/

section

variable {α : Type} [Coordinate α]

/-- Where all points have a level and one is below the top, each keeps its place sideways. -/
theorem ranked_some (scale : α) {depths : List Nat} (h : depths.foldl max 0 ≠ 0)
    (ps : List (Point α)) : ranked scale (depths.map some) ps = List.zipWith
      (fun n p => { p with y := levelHeight scale (depths.foldl max 0) n }) depths ps := by
  have hdepths : (depths.map some).filterMap id = depths := by
    simp [List.filterMap_map]
  unfold ranked
  rw [hdepths, if_neg h, List.zipWith_map_left]

end

/-! ## 3. The levels of an outline -/

section

variable {fe : FrontEnd} {limit labelLength : Nat} {d : Document} {ps : List Place} {o : Outline}
  (h : IsTreeOf fe limit labelLength d ps o)
include h

theorem ids_of_isTreeOf : o.graph.ids = List.range ps.length := by
  rw [Graph.ids, h.nodes]
  exact List.ext_getElem (by simp) fun i _ _ => by simp

/-- The level of a node is how deep it stands in the document. -/
theorem depths_of_isTreeOf : (o.graph.ids.map fun id => o.graph.depths.lookup id) =
    (ps.map (·.path.length)).map some := by
  rw [ids_of_isTreeOf h, List.map_map]
  refine List.ext_getElem (by simp) fun i hi _ => ?_
  have hlt : i < ps.length := by simpa using hi
  have hdepth := h.depth i
  rw [Graph.depth?, List.getElem?_eq_getElem hlt] at hdepth
  simpa using hdepth

/-- The deepest level is that of some node, and none is deeper. -/
theorem isGreatest_depth (hroot : Rooted d.root ps) :
    IsGreatest {n | ∃ id, o.graph.depth? id = some n} ((ps.map (·.path.length)).foldl max 0) := by
  have hmem (n : Nat) : (∃ id, o.graph.depth? id = some n) ↔ n ∈ ps.map (·.path.length) := by
    simp only [h.depth, List.mem_iff_getElem?, List.getElem?_map]
  have hgreatest := isGreatest_foldl_max 0 (ps.map (·.path.length))
  refine ⟨(hmem _).mpr ?_, fun n hn => hgreatest.2 (List.mem_cons_of_mem 0 ((hmem n).mp hn))⟩
  obtain hzero | hdeep := List.mem_cons.mp hgreatest.1
  · rw [hzero]
    exact List.mem_map.mpr ⟨_, hroot.root_mem, rfl⟩
  · exact hdeep

end

/-- Of two nodes one is below the root. -/
theorem deepest_pos {root : Node} {ps : List Place} (hroot : Rooted root ps)
    (htwo : 2 ≤ ps.length) : 0 < (ps.map (·.path.length)).foldl max 0 := by
  have hone : ps[1]? = some ps[1] := List.getElem?_eq_getElem htwo
  have hne : ps[1].path ≠ [] := by
    intro hnil
    have hsame := hroot.index_unique hone hroot.head hnil
    cases hsame
  have hle := (isGreatest_foldl_max 0 (ps.map (·.path.length))).2
    (List.mem_cons_of_mem 0 (List.mem_map_of_mem (List.getElem_mem htwo)))
  exact (List.length_pos_of_ne_nil hne).trans_le hle

/-! ## 4. Nodes above nodes -/

/-- Points for the nodes of a tree of places, on their levels and not moved sideways. -/
structure OnLevels (scale : ℚ) (deepest : Nat) (g : Graph) (ps : List Place)
    (points placed : List (Point ℚ)) : Prop where
  keys : (g.ids.zip placed).map (·.1) = g.ids
  across : placed.map (·.x) = points.map (·.x)
  height : ∀ i k p, ps[i]? = some k → (i, p) ∈ g.ids.zip placed →
    p.y = scale - 2 * scale * k.path.length / deepest
  above : ∀ e ∈ g.edges, ∀ p q, (e.source, p) ∈ g.ids.zip placed →
    (e.target, q) ∈ g.ids.zip placed → q.y < p.y
  root : ∀ i ∈ g.roots, ∀ p, (i, p) ∈ g.ids.zip placed → p.y = scale
  bottom : ∀ i p, g.depth? i = some deepest → (i, p) ∈ g.ids.zip placed → p.y = -scale
  within : ∀ p ∈ placed, p.y ∈ Set.Icc (-scale) scale
  level : ∀ i j p q, g.depth? i = g.depth? j → (i, p) ∈ g.ids.zip placed →
    (j, q) ∈ g.ids.zip placed → p.y = q.y

theorem mem_zip_range_iff {β : Type} {n i : Nat} {xs : List β} {x : β} (hn : xs.length ≤ n) :
    (i, x) ∈ (List.range n).zip xs ↔ xs[i]? = some x := by
  rw [List.mem_iff_getElem?]
  constructor
  · rintro ⟨j, hj⟩
    obtain ⟨hi, hx⟩ := List.getElem?_zip_eq_some.mp hj
    obtain ⟨hlt, rfl⟩ := List.getElem?_eq_some_iff.mp hi
    simpa using hx
  · intro hx
    have hi : i < n := (List.getElem?_eq_some_iff.mp hx).1.trans_le hn
    exact ⟨i, List.getElem?_zip_eq_some.mpr ⟨List.getElem?_range hi, hx⟩⟩

/-- The point of a node is on the level of its place. -/
theorem exists_level_of_mem_zip (level : Nat → ℚ) {ps : List Place} {points : List (Point ℚ)}
    {i : Nat} {p : Point ℚ}
    (hp : (i, p) ∈ (List.range ps.length).zip (List.zipWith
      (fun n p => { p with y := level n }) (ps.map (·.path.length)) points)) :
    ∃ k, ps[i]? = some k ∧ p.y = level k.path.length := by
  have hlength : (List.zipWith (fun n (p : Point ℚ) => { p with y := level n })
      (ps.map (·.path.length)) points).length ≤ ps.length := by
    simp
  rw [mem_zip_range_iff hlength] at hp
  obtain ⟨n, q, hn, hq, rfl⟩ := List.getElem?_zipWith_eq_some.mp hp
  rw [List.getElem?_map, Option.map_eq_some_iff] at hn
  obtain ⟨k, hk, rfl⟩ := hn
  exact ⟨k, hk, rfl⟩

/-- **Points on the levels of a tree**: the root is on top, and every node is above those inside
it. -/
theorem onLevels_of_isTreeOf {fe : FrontEnd} {limit labelLength : Nat} {d : Document}
    {ps : List Place} {o : Outline} (h : IsTreeOf fe limit labelLength d ps o)
    (hroot : Rooted d.root ps) (tiny : ℚ) {scale : ℚ} (hscale : 0 < scale) {deepest : Nat}
    (hdeepest : 0 < deepest) (hmax : ∀ k ∈ ps, k.path.length ≤ deepest)
    {points : List (Point ℚ)} (hpoints : points.length = ps.length) :
    OnLevels scale deepest o.graph ps points (List.zipWith
      (fun n p => { p with y := @levelHeight ℚ (.exact tiny) scale deepest n })
      (ps.map (·.path.length)) points) := by
  have hids := ids_of_isTreeOf h
  have hacross : (List.zipWith
      (fun n p => { p with y := @levelHeight ℚ (.exact tiny) scale deepest n })
      (ps.map (·.path.length)) points).map (·.x) = points.map (·.x) := by
    refine List.ext_getElem (by simp [hpoints]) fun i _ _ => by simp
  generalize hplaced : List.zipWith _ _ points = placed at hacross ⊢
  have hlength : placed.length = ps.length := by simp [← hplaced, hpoints]
  have hlevel : ∀ i p, (i, p) ∈ o.graph.ids.zip placed → ∃ k, ps[i]? = some k ∧
      p.y = @levelHeight ℚ (.exact tiny) scale deepest k.path.length := by
    intro i p hp
    rw [hids, ← hplaced] at hp
    exact exists_level_of_mem_zip _ hp
  have hheight : ∀ i k p, ps[i]? = some k → (i, p) ∈ o.graph.ids.zip placed →
      p.y = @levelHeight ℚ (.exact tiny) scale deepest k.path.length := by
    intro i k p hk hp
    obtain ⟨k', hk', hy⟩ := hlevel i p hp
    rwa [Option.some.inj (hk.symm.trans hk')]
  constructor
  case keys =>
    refine List.map_fst_zip ?_
    rw [hids, List.length_range, hlength]
  case across => exact hacross
  case height => exact hheight
  case above =>
    intro e he p q hp hq
    obtain ⟨i, j, k, k', a, hk, hk', hpath, rfl⟩ := (h.mem_edges e).mp he
    rw [hheight i k p hk hp, hheight j k' q hk' hq, hpath, List.length_append]
    exact levelHeight_lt tiny hscale hdeepest (Nat.lt_succ_self _)
  case root =>
    intro i hi p hp
    rw [h.roots, List.mem_singleton] at hi
    subst hi
    rw [hheight 0 _ p hroot.head hp]
    exact levelHeight_zero tiny scale deepest
  case bottom =>
    intro i p hi hp
    obtain ⟨k, hk, hy⟩ := hlevel i p hp
    rw [h.depth, hk, Option.map_some, Option.some.injEq] at hi
    rw [hy, hi]
    exact levelHeight_self tiny scale hdeepest
  case within =>
    intro p hp
    obtain ⟨i, hi⟩ := List.mem_iff_getElem?.mp hp
    rw [← mem_zip_range_iff hlength.le, ← hids] at hi
    obtain ⟨k, hk, hy⟩ := hlevel i p hi
    rw [hy]
    exact levelHeight_mem_Icc tiny hscale hdeepest (hmax k (List.mem_of_getElem? hk))
  case level =>
    intro i j p q hij hp hq
    obtain ⟨k, hk, hy⟩ := hlevel i p hp
    obtain ⟨k', hk', hy'⟩ := hlevel j q hq
    rw [h.depth, h.depth, hk, hk', Option.map_some, Option.map_some, Option.some.injEq] at hij
    rw [hy, hy', hij]

/-- **The levels of an outline.**  Whatever the document and the limit are, an outline of two nodes
or more is put on levels: the height of a node falls linearly with its depth in the document, from
the scale to its opposite, so that every node lies strictly above those inside it. -/
theorem ranked_onLevels (fe : FrontEnd) (limit labelLength : Nat) (d : Document) (tiny : ℚ)
    {scale : ℚ} (hscale : 0 < scale) {points : List (Point ℚ)}
    (htwo : 2 ≤ (build fe limit labelLength d).graph.nodeCount)
    (hpoints : points.length = (build fe limit labelLength d).graph.nodeCount) :
    letI := Coordinate.exact tiny
    let g := (build fe limit labelLength d).graph
    ∃ ps deepest, Kept d.root limit ps ∧ (d.root.ids.Nodup → Listing d.root limit ps) ∧
      IsTreeOf fe limit labelLength d ps (build fe limit labelLength d) ∧
      IsGreatest {n | ∃ id, g.depth? id = some n} deepest ∧ 0 < deepest ∧
      OnLevels scale deepest g ps points
        (ranked scale (g.ids.map fun id => g.depths.lookup id) points) := by
  obtain ⟨ps, hkept, hs, hbuild⟩ := build_eq_drawn_of_kept fe limit labelLength d
  have hroot := hkept.rooted
  have htree : IsTreeOf fe limit labelLength d ps (build fe limit labelLength d) :=
    hbuild ▸ drawn_isTreeOf hroot (fun k hk => ((hkept.mem_iff k).mp hk).1) hs
  rw [htree.total.2] at htwo hpoints
  have hdeepest := deepest_pos hroot htwo
  have hmax : ∀ k ∈ ps, k.path.length ≤ (ps.map (·.path.length)).foldl max 0 := fun k hk =>
    (isGreatest_foldl_max 0 _).2 (List.mem_cons_of_mem 0 (List.mem_map_of_mem hk))
  refine ⟨ps, _, hkept, hkept.listing, htree, isGreatest_depth htree hroot, hdeepest, ?_⟩
  rw [depths_of_isTreeOf htree, @ranked_some ℚ (.exact tiny) scale _ hdeepest.ne' points]
  exact onLevels_of_isTreeOf htree hroot tiny hscale hdeepest hmax hpoints

/-- The text `x = 1`: a module, a statement, and an assignment with two nodes inside it. -/
theorem ranked_onLevels_assignment :
    letI := Coordinate.exact (1 / 4503599627370496)
    let d : Document := {
      language := .python
      text := "x = 1"
      tree := .node { id := 0, kind := "module", start := 0, stop := 5 }
        [.node { id := 1, kind := "expression_statement", start := 0, stop := 5 }
          [.node { id := 2, kind := "assignment", start := 0, stop := 5 }
            [.node { id := 3, kind := "identifier", start := 0, stop := 1 } [],
             .node { id := 4, kind := "=", named := false, start := 2, stop := 3 } [],
             .node { id := 5, kind := "integer", start := 4, stop := 5 } []]]] }
    let points : List (Point ℚ) := [⟨0, 1⟩, ⟨1, 1⟩, ⟨-1, 0⟩, ⟨1, -1⟩, ⟨-1, -1⟩]
    let g := (build Python.frontEnd 9 40 d).graph
    ∃ ps deepest, Kept d.root 9 ps ∧ (d.root.ids.Nodup → Listing d.root 9 ps) ∧
      IsTreeOf Python.frontEnd 9 40 d ps (build Python.frontEnd 9 40 d) ∧
      IsGreatest {n | ∃ id, g.depth? id = some n} deepest ∧ 0 < deepest ∧
      OnLevels 1 deepest g ps points
        (ranked 1 (g.ids.map fun id => g.depths.lookup id) points) :=
  ranked_onLevels _ _ _ _ _ one_pos (by decide +kernel) (by decide +kernel)

end CodeDiagram.Placement
