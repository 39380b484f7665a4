/-
# Filling the square

What `rescale` does to some points, over exact numbers: all of them are moved and stretched in the
same way (`rescale_eq_map`), by a vector that takes their centroid to the origin and a factor that
is positive.  Where the points are together, up to the bound below which an extent counts as none,
the factor is one; elsewhere it makes the largest coordinate the scale.  So the order of the points
on each axis stays as it is, doing it once more changes nothing, and nothing is divided by zero
(`rescale_fills`).
-/
import CodeDiagram.Layout.Placement
import CodeDiagram.Proofs.Layout.Exact
import Mathlib.Algebra.Order.Ring.Abs
import Mathlib.Tactic.Ring
import Mathlib.Tactic.FieldSimp
import Mathlib.Tactic.Positivity
import Mathlib.Algebra.BigOperators.Group.List.Basic

namespace CodeDiagram.Placement

/-! ## 1. Moving and stretching -/

/-- The point in the middle of some points. -/
def centroid (ps : List (Point ℚ)) : Point ℚ :=
  ⟨(ps.map (·.x)).sum / ps.length, (ps.map (·.y)).sum / ps.length⟩

/-- A point as seen from another one, through a glass. -/
def seenFrom (c : Point ℚ) (k : ℚ) (p : Point ℚ) : Point ℚ := ⟨(p.x - c.x) * k, (p.y - c.y) * k⟩

theorem sum_map_sub_mul (c k : ℚ) (xs : List ℚ) :
    (xs.map fun x => (x - c) * k).sum = (xs.sum - xs.length * c) * k := by
  induction xs with
  | nil => simp
  | cons x xs ih =>
    simp only [List.map_cons, List.sum_cons, ih, List.length_cons, Nat.cast_succ]
    ring

/-- Where the middle goes all points go. -/
theorem centroid_map_seenFrom (c : Point ℚ) (k : ℚ) {ps : List (Point ℚ)} (h : ps ≠ []) :
    centroid (ps.map (seenFrom c k)) = seenFrom c k (centroid ps) := by
  have hpos : (ps.length : ℚ) ≠ 0 := by simpa using h
  have hx := sum_map_sub_mul c.x k (ps.map (·.x))
  have hy := sum_map_sub_mul c.y k (ps.map (·.y))
  simp only [List.map_map, List.length_map] at hx hy
  simp only [centroid, seenFrom, List.map_map, List.length_map, Point.mk.injEq]
  constructor
  · refine (congrArg (· / (ps.length : ℚ)) hx).trans ?_
    field_simp
  · refine (congrArg (· / (ps.length : ℚ)) hy).trans ?_
    field_simp

theorem seenFrom_self (c : Point ℚ) (k : ℚ) : seenFrom c k c = ⟨0, 0⟩ := by simp [seenFrom]

theorem seenFrom_origin : seenFrom ⟨0, 0⟩ 1 = id := by
  funext p
  simp [seenFrom]

theorem map_seenFrom_origin (c : Point ℚ) (k : ℚ) (ps : List (Point ℚ)) :
    (ps.map (seenFrom c 1)).map (seenFrom ⟨0, 0⟩ k) = ps.map (seenFrom c k) := by
  simp [seenFrom]

/-! ## 2. Largest coordinates -/

/-- The coordinates of some points, without their signs. -/
def sizes (ps : List (Point ℚ)) : List ℚ := ps.flatMap fun p => [|p.x|, |p.y|]

theorem mem_sizes_iff {ps : List (Point ℚ)} {a : ℚ} :
    a ∈ sizes ps ↔ ∃ p ∈ ps, a = |p.x| ∨ a = |p.y| := by
  simp [sizes]

theorem isGreatest_sizes_map {k a : ℚ} (hk : 0 < k) {ps : List (Point ℚ)}
    (h : IsGreatest {a | a ∈ sizes ps} a) :
    IsGreatest {a | a ∈ sizes (ps.map (seenFrom ⟨0, 0⟩ k))} (a * k) := by
  have hsizes : sizes (ps.map (seenFrom ⟨0, 0⟩ k)) = (sizes ps).map (· * k) := by
    simp [sizes, seenFrom, List.flatMap_map, List.map_flatMap, abs_mul, abs_of_pos hk]
  have hset : {a | a ∈ (sizes ps).map (· * k)} = (· * k) '' {a | a ∈ sizes ps} :=
    Set.ext fun _ => List.mem_map
  rw [hsizes, hset]
  exact (monotone_mul_right_of_nonneg hk.le).map_isGreatest h

/-- No point is as far as the bound from the middle, on either axis. -/
def AreTogether (tiny : ℚ) (ps : List (Point ℚ)) : Prop :=
  ∀ p ∈ ps, |p.x - (centroid ps).x| < tiny ∧ |p.y - (centroid ps).y| < tiny

section

variable (tiny : ℚ)

theorem mean_exact (xs : List ℚ) :
    letI := Coordinate.exact tiny
    mean xs = xs.sum / xs.length := by
  rw [List.sum_eq_foldl]
  rfl

theorem centred_exact (ps : List (Point ℚ)) :
    letI := Coordinate.exact tiny
    centred ps = ps.map (seenFrom (centroid ps) 1) := by
  simp only [centred, mean_exact, List.length_map]
  exact List.map_congr_left fun p _ => by simp [seenFrom, centroid]

/-- The extent is zero or one of the coordinates, and none is larger. -/
theorem isGreatest_extent (ps : List (Point ℚ)) :
    letI := Coordinate.exact tiny
    IsGreatest {a | a ∈ 0 :: sizes ps} (extent ps) :=
  isGreatest_foldl_max 0 (sizes ps)

theorem extent_lt_iff {bound : ℚ} (hbound : 0 < bound) (ps : List (Point ℚ)) :
    letI := Coordinate.exact tiny
    extent ps < bound ↔ ∀ p ∈ ps, |p.x| < bound ∧ |p.y| < bound := by
  have hgreatest := isGreatest_extent tiny ps
  constructor
  · intro hlt p hp
    have hx := hgreatest.2 (List.mem_cons_of_mem 0 (mem_sizes_iff.mpr ⟨p, hp, .inl rfl⟩))
    have hy := hgreatest.2 (List.mem_cons_of_mem 0 (mem_sizes_iff.mpr ⟨p, hp, .inr rfl⟩))
    exact ⟨hx.trans_lt hlt, hy.trans_lt hlt⟩
  · intro hall
    obtain hzero | hmem := List.mem_cons.mp hgreatest.1
    · rw [hzero]
      exact hbound
    · obtain ⟨p, hp, hx | hy⟩ := mem_sizes_iff.mp hmem
      · rw [hx]
        exact (hall p hp).1
      · rw [hy]
        exact (hall p hp).2

/-- An extent that is something is one of the coordinates. -/
theorem isGreatest_extent_of_pos {ps : List (Point ℚ)} :
    letI := Coordinate.exact tiny
    0 < extent ps → IsGreatest {a | a ∈ sizes ps} (extent ps) := by
  intro hpos
  have hgreatest := isGreatest_extent tiny ps
  refine ⟨?_, fun a ha => hgreatest.2 (List.mem_cons_of_mem 0 ha)⟩
  obtain hzero | hmem := List.mem_cons.mp hgreatest.1
  · exact absurd hzero hpos.ne'
  · exact hmem

theorem extent_eq_of_isGreatest {ps : List (Point ℚ)} {a : ℚ} (hpos : 0 ≤ a)
    (h : IsGreatest {a | a ∈ sizes ps} a) :
    letI := Coordinate.exact tiny
    extent ps = a := by
  refine (isGreatest_extent tiny ps).unique ⟨List.mem_cons_of_mem 0 h.1, ?_⟩
  rintro b (_ | ⟨_, hb⟩)
  · exact hpos
  · exact h.2 hb

theorem extent_centred_lt_iff (htiny : 0 < tiny) (ps : List (Point ℚ)) :
    letI := Coordinate.exact tiny
    extent (centred ps) < tiny ↔ AreTogether tiny ps := by
  rw [extent_lt_iff tiny htiny, centred_exact]
  simp [AreTogether, seenFrom]

/-! ## 3. The factor -/

/-- By which factor points are stretched once they are centred. -/
def factor (scale : ℚ) (ps : List (Point ℚ)) : ℚ :=
  letI := Coordinate.exact tiny
  if extent (centred ps) < tiny then 1 else scale / extent (centred ps)

/-- **All points are moved and stretched in the same way.** -/
theorem rescale_eq_map (scale : ℚ) (ps : List (Point ℚ)) :
    letI := Coordinate.exact tiny
    rescale scale ps = ps.map (seenFrom (centroid ps) (factor tiny scale ps)) := by
  rw [← map_seenFrom_origin, ← centred_exact tiny]
  by_cases hless : @extent ℚ (.exact tiny) (@centred ℚ (.exact tiny) ps) < tiny
  · simp [rescale, factor, hless, seenFrom_origin]
  · simp [rescale, factor, hless, seenFrom]

variable {tiny}

theorem factor_of_areTogether (htiny : 0 < tiny) (scale : ℚ) {ps : List (Point ℚ)}
    (h : AreTogether tiny ps) : factor tiny scale ps = 1 :=
  if_pos ((extent_centred_lt_iff tiny htiny ps).mpr h)

/-- The largest coordinate becomes the scale. -/
theorem isGreatest_scale (htiny : 0 < tiny) {scale : ℚ} (hscale : 0 < scale) {ps : List (Point ℚ)}
    (h : ¬ AreTogether tiny ps) :
    letI k := factor tiny scale ps
    0 < k ∧ IsGreatest {a | a ∈ sizes (ps.map (seenFrom (centroid ps) k))} scale := by
  have hlarge := mt (extent_centred_lt_iff tiny htiny ps).mp h
  have hextent := htiny.trans_le (not_lt.mp hlarge)
  have hfactor : factor tiny scale ps = scale / _ := if_neg hlarge
  have hpos : 0 < factor tiny scale ps := by
    rw [hfactor]
    exact div_pos hscale hextent
  have hreach := div_mul_cancel₀ scale hextent.ne'
  rw [← hfactor, mul_comm] at hreach
  have hgreatest := isGreatest_sizes_map hpos (isGreatest_extent_of_pos tiny hextent)
  rw [hreach, centred_exact, map_seenFrom_origin] at hgreatest
  exact ⟨hpos, hgreatest⟩

theorem factor_pos (htiny : 0 < tiny) {scale : ℚ} (hscale : 0 < scale) (ps : List (Point ℚ)) :
    0 < factor tiny scale ps := by
  by_cases h : AreTogether tiny ps
  · rw [factor_of_areTogether htiny scale h]
    exact one_pos
  · exact (isGreatest_scale htiny hscale h).1

theorem centroid_rescale (scale : ℚ) {ps : List (Point ℚ)} (hsome : ps ≠ []) :
    letI := Coordinate.exact tiny
    centroid (rescale scale ps) = ⟨0, 0⟩ := by
  rw [rescale_eq_map, centroid_map_seenFrom _ _ hsome, seenFrom_self]

theorem centred_rescale (scale : ℚ) {ps : List (Point ℚ)} (hsome : ps ≠ []) :
    letI := Coordinate.exact tiny
    centred (rescale scale ps) = rescale scale ps := by
  rw [centred_exact, centroid_rescale scale hsome, seenFrom_origin, List.map_id]

/-! ## 4. Twice -/

/-- Once done, the factor is one: the points are either together, or reach the scale. -/
theorem factor_rescale (htiny : 0 < tiny) {scale : ℚ} (hscale : 0 < scale) {ps : List (Point ℚ)}
    (hsome : ps ≠ []) :
    letI := Coordinate.exact tiny
    factor tiny scale (rescale scale ps) = 1 := by
  by_cases h : AreTogether tiny ps
  · refine factor_of_areTogether htiny scale ?_
    intro q hq
    rw [centroid_rescale scale hsome, sub_zero, sub_zero]
    rw [rescale_eq_map, factor_of_areTogether htiny scale h] at hq
    obtain ⟨p, hp, rfl⟩ := List.mem_map.mp hq
    simpa [seenFrom] using h p hp
  · have hgreatest := (isGreatest_scale htiny hscale h).2
    rw [← rescale_eq_map] at hgreatest
    have hextent := extent_eq_of_isGreatest tiny hscale.le hgreatest
    rw [factor, centred_rescale scale hsome, hextent, div_self hscale.ne', ite_self]

theorem rescale_rescale (htiny : 0 < tiny) {scale : ℚ} (hscale : 0 < scale) {ps : List (Point ℚ)}
    (hsome : ps ≠ []) :
    letI := Coordinate.exact tiny
    rescale scale (rescale scale ps) = rescale scale ps := by
  rw [rescale_eq_map tiny scale (@rescale ℚ (.exact tiny) scale ps),
    factor_rescale htiny hscale hsome, centroid_rescale scale hsome, seenFrom_origin, List.map_id]

/-! ## 5. Quotients -/

variable (tiny)

theorem mean_guarded {xs : List ℚ} (hsome : xs ≠ []) :
    @mean (Option ℚ) (.guarded tiny) (xs.map some) = some (@mean ℚ (.exact tiny) xs) := by
  have hlength : (xs.length : ℚ) ≠ 0 := by simpa using hsome
  have hsum := foldl_map₂_some (· + ·) ((0 : ℕ) : ℚ) xs
  let _ := Coordinate.guarded tiny
  calc mean (xs.map some)
      = some (xs.foldl (· + ·) ((0 : ℕ) : ℚ)) / some (xs.length : ℚ) := by
        rw [← hsum, mean, List.length_map]
        rfl
    _ = some _ := Coordinate.div_guarded tiny _ hlength

theorem centred_guarded {ps : List (Point ℚ)} (hsome : ps ≠ []) :
    @centred (Option ℚ) (.guarded tiny) (ps.map (.map some)) =
      (@centred ℚ (.exact tiny) ps).map (.map some) := by
  have hne (f : Point ℚ → ℚ) : ps.map f ≠ [] := by simpa using hsome
  have hx := mean_guarded tiny (hne (·.x))
  have hy := mean_guarded tiny (hne (·.y))
  rw [List.map_map] at hx hy
  simp only [centred, List.map_map]
  refine List.map_congr_left fun p _ => congrArg₂ Point.mk ?_ ?_
  · exact congrArg (Option.map₂ (· - ·) (some p.x)) hx
  · exact congrArg (Option.map₂ (· - ·) (some p.y)) hy

theorem extent_guarded (ps : List (Point ℚ)) :
    @extent (Option ℚ) (.guarded tiny) (ps.map (.map some)) =
      some (@extent ℚ (.exact tiny) ps) := by
  have hsizes : (ps.map (Point.map some)).flatMap (fun p => [p.x.map abs, p.y.map abs]) =
      (sizes ps).map some := by
    simp [sizes, List.flatMap_map, List.map_flatMap]
  refine (congrArg (List.foldl (Option.map₂ max) (some ((0 : ℕ) : ℚ))) hsizes).trans ?_
  exact foldl_map₂_some max _ (sizes ps)

variable {tiny}

/-- **Nothing is divided by zero.** -/
theorem rescale_guarded (htiny : 0 < tiny) (scale : ℚ) {ps : List (Point ℚ)} (hsome : ps ≠ []) :
    @rescale (Option ℚ) (.guarded tiny) (some scale) (ps.map (.map some)) =
      (@rescale ℚ (.exact tiny) scale ps).map (.map some) := by
  unfold rescale
  simp only [centred_guarded tiny hsome, extent_guarded, Coordinate.tiny_guarded,
    Coordinate.less_guarded, Coordinate.tiny_exact, Coordinate.less_exact]
  split
  · rfl
  · rename_i hless
    have hextent := htiny.trans_le (not_lt.mp (mt decide_eq_true hless))
    rw [Coordinate.div_guarded tiny _ hextent.ne']
    simp only [List.map_map]
    exact List.map_congr_left fun p _ => rfl

/-! ## 6. The square -/

/-- Points that fill the square of a scale as well as others allow. -/
structure Fills (tiny scale : ℚ) (ps qs : List (Point ℚ)) : Prop where
  length_eq : qs.length = ps.length
  centroid_eq : centroid qs = ⟨0, 0⟩
  /-- Points that are together are only moved. -/
  together : AreTogether tiny ps →
    qs = ps.map fun p => ⟨p.x - (centroid ps).x, p.y - (centroid ps).y⟩
  /-- Other points reach the border of the square. -/
  reach : ¬ AreTogether tiny ps → IsGreatest {a | ∃ q ∈ qs, a = |q.x| ∨ a = |q.y|} scale
  within : ¬ AreTogether tiny ps →
    ∀ q ∈ qs, q.x ∈ Set.Icc (-scale) scale ∧ q.y ∈ Set.Icc (-scale) scale
  horizontal : ∀ (i j : Nat) (p p' q q' : Point ℚ), ps[i]? = some p → ps[j]? = some p' →
    qs[i]? = some q → qs[j]? = some q' → (q.x < q'.x ↔ p.x < p'.x)
  vertical : ∀ (i j : Nat) (p p' q q' : Point ℚ), ps[i]? = some p → ps[j]? = some p' →
    qs[i]? = some q → qs[j]? = some q' → (q.y < q'.y ↔ p.y < p'.y)

theorem eq_seenFrom_of_getElem? {scale : ℚ} {ps : List (Point ℚ)} {i : Nat} {p q : Point ℚ}
    (hp : ps[i]? = some p) :
    letI := Coordinate.exact tiny
    (rescale scale ps)[i]? = some q → q = seenFrom (centroid ps) (factor tiny scale ps) p := by
  intro hq
  rw [rescale_eq_map, List.getElem?_map, hp] at hq
  exact (Option.some.inj hq).symm

theorem fills_rescale (htiny : 0 < tiny) {scale : ℚ} (hscale : 0 < scale) {ps : List (Point ℚ)}
    (hsome : ps ≠ []) :
    letI := Coordinate.exact tiny
    Fills tiny scale ps (rescale scale ps) := by
  have hpos := factor_pos htiny hscale ps
  have hreach (h : ¬ AreTogether tiny ps) : IsGreatest
      {a | ∃ q ∈ @rescale ℚ (.exact tiny) scale ps, a = |q.x| ∨ a = |q.y|} scale := by
    have hgreatest := (isGreatest_scale htiny hscale h).2
    rw [← rescale_eq_map] at hgreatest
    simpa only [mem_sizes_iff] using hgreatest
  constructor
  case length_eq => rw [rescale_eq_map, List.length_map]
  case centroid_eq => exact centroid_rescale scale hsome
  case together =>
    intro h
    rw [rescale_eq_map, factor_of_areTogether htiny scale h]
    simp [seenFrom]
  case reach => exact hreach
  case within =>
    intro h q hq
    have hlargest := (hreach h).2
    exact ⟨abs_le.mp (hlargest ⟨q, hq, .inl rfl⟩), abs_le.mp (hlargest ⟨q, hq, .inr rfl⟩)⟩
  case horizontal =>
    intro i j p p' q q' hp hp' hq hq'
    rw [eq_seenFrom_of_getElem? hp hq, eq_seenFrom_of_getElem? hp' hq']
    simp [seenFrom, mul_lt_mul_iff_left₀ hpos]
  case vertical =>
    intro i j p p' q q' hp hp' hq hq'
    rw [eq_seenFrom_of_getElem? hp hq, eq_seenFrom_of_getElem? hp' hq']
    simp [seenFrom, mul_lt_mul_iff_left₀ hpos]

end

/-- **Scaling fills the square**: the centroid goes to the origin, the largest coordinate becomes
the scale unless the points are together, the order on each axis stays as it is, doing it once more
changes nothing, and nothing is divided by zero. -/
theorem rescale_fills {tiny scale : ℚ} (htiny : 0 < tiny) (hscale : 0 < scale)
    {ps : List (Point ℚ)} (hsome : ps ≠ []) :
    letI := Coordinate.exact tiny
    Fills tiny scale ps (rescale scale ps) ∧
      rescale scale (rescale scale ps) = rescale scale ps ∧
      @rescale (Option ℚ) (.guarded tiny) (some scale) (ps.map (.map some)) =
        (rescale scale ps).map (.map some) :=
  ⟨fills_rescale htiny hscale hsome, rescale_rescale htiny hscale hsome,
    rescale_guarded htiny scale hsome⟩

theorem rescale_fills_three :
    letI := Coordinate.exact (1 / 4503599627370496)
    let ps : List (Point ℚ) := [⟨0, 0⟩, ⟨4, 2⟩, ⟨2, 1⟩]
    Fills (1 / 4503599627370496) 1 ps (rescale 1 ps) ∧
      rescale 1 (rescale 1 ps) = rescale 1 ps ∧
      @rescale (Option ℚ) (.guarded (1 / 4503599627370496)) (some 1) (ps.map (.map some)) =
        (rescale 1 ps).map (.map some) :=
  rescale_fills (by positivity) one_pos (List.cons_ne_nil _ _)

example : @rescale ℚ (.exact (1 / 4503599627370496)) 1 [⟨0, 0⟩, ⟨4, 2⟩, ⟨2, 1⟩] =
    [⟨-1, -1/2⟩, ⟨1, 1/2⟩, ⟨0, 0⟩] := by cbv

end CodeDiagram.Placement
