/-
# Stretching over the canvas

What `Projection.fit` and `Projection.apply` do to some points, over exact numbers.  An axis is
fitted to the least and the largest coordinate (`exists_fit_eq`), so the share of a coordinate along
it is between zero and one (`share_mem_Icc`), grows with the coordinate (`monotone_share`) and is
zero at the one end and one at the other, or one half everywhere if there is hardly any length.  The
canvas has the shares from left to right on the one axis and from bottom to top on the other
(`fit_stretches`).
-/
import CodeDiagram.Drawing.Projection
import CodeDiagram.Proofs.Layout.Exact
import Mathlib.Algebra.Order.Field.Basic
import Mathlib.Tactic.Linarith
import Mathlib.Tactic.NormNum
import Mathlib.Tactic.Positivity

namespace CodeDiagram.Drawing

/-! ## 1. The ends of an axis -/

section

variable (tiny : ℚ)

theorem exists_bounds_eq {xs : List ℚ} (hsome : xs ≠ []) :
    ∃ low high, IsLeast {x | x ∈ xs} low ∧ IsGreatest {x | x ∈ xs} high ∧
      @bounds? ℚ (.exact tiny) xs = some (low, high) ∧
      @bounds? (Option ℚ) (.guarded tiny) (xs.map some) = some (some low, some high) := by
  obtain - | ⟨x, xs⟩ := xs
  · exact absurd rfl hsome
  · refine ⟨xs.foldl min x, xs.foldl max x, isLeast_foldl_min x xs, isGreatest_foldl_max x xs,
      rfl, ?_⟩
    exact congrArg some (Prod.ext (foldl_map₂_some min x xs) (foldl_map₂_some max x xs))

/-- An axis goes from the least to the largest coordinate. -/
theorem exists_fit_eq {xs : List ℚ} (hsome : xs ≠ []) :
    ∃ low high, IsLeast {x | x ∈ xs} low ∧ IsGreatest {x | x ∈ xs} high ∧
      @Axis.fit ℚ (.exact tiny) xs = ⟨low, high - low⟩ ∧
      @Axis.fit (Option ℚ) (.guarded tiny) (xs.map some) = ⟨some low, some (high - low)⟩ := by
  obtain ⟨low, high, hlow, hhigh, hexact, hguarded⟩ := exists_bounds_eq tiny hsome
  refine ⟨low, high, hlow, hhigh, ?_, ?_⟩
  · unfold Axis.fit
    rw [hexact]
  · unfold Axis.fit
    rw [hguarded]
    rfl

theorem fit_of_ends {xs : List ℚ} {low high : ℚ} (hlow : low ∈ xs) (hhigh : high ∈ xs)
    (h : ∀ x ∈ xs, low ≤ x ∧ x ≤ high) :
    letI := Coordinate.exact tiny
    Axis.fit xs = ⟨low, high - low⟩ := by
  obtain ⟨low', high', hleast, hgreatest, hfit, -⟩ :=
    exists_fit_eq tiny (List.ne_nil_of_mem hlow)
  have hl : low' = low := hleast.unique ⟨hlow, fun x hx => (h x hx).1⟩
  have hh : high' = high := hgreatest.unique ⟨hhigh, fun x hx => (h x hx).2⟩
  rw [hfit, hl, hh]

end

/-! ## 2. Shares -/

section

variable {tiny : ℚ}

theorem share_exact (a : Axis ℚ) (x : ℚ) :
    letI := Coordinate.exact tiny
    a.share x = if tiny < a.span then (x - a.start) / a.span else 1 / 2 := by
  simp [Axis.share]

/-- The only quotients are by a length that is something, and by two. -/
theorem share_guarded (htiny : 0 < tiny) (start span x : ℚ) :
    @Axis.share (Option ℚ) (.guarded tiny) ⟨some start, some span⟩ (some x) =
      some (@Axis.share ℚ (.exact tiny) ⟨start, span⟩ x) := by
  by_cases hwide : tiny < span
  · have hspan : span ≠ 0 := (htiny.trans hwide).ne'
    simp [Axis.share, hwide, hspan]
  · have htwo : ((2 : ℕ) : ℚ) ≠ 0 := by norm_num
    simp only [Axis.share, Coordinate.tiny_guarded, Coordinate.less_guarded,
      Coordinate.ofNat_guarded, Coordinate.div_guarded tiny _ htwo]
    simp [hwide]

theorem share_of_narrow {a : Axis ℚ} (hnarrow : ¬ tiny < a.span) (x : ℚ) :
    letI := Coordinate.exact tiny
    a.share x = 1 / 2 := by
  rw [share_exact, if_neg hnarrow]

theorem share_start {a : Axis ℚ} (hwide : tiny < a.span) :
    letI := Coordinate.exact tiny
    a.share a.start = 0 := by
  rw [share_exact, if_pos hwide, sub_self, zero_div]

theorem share_end (htiny : 0 < tiny) {a : Axis ℚ} (hwide : tiny < a.span) :
    letI := Coordinate.exact tiny
    a.share (a.start + a.span) = 1 := by
  rw [share_exact, if_pos hwide, add_sub_cancel_left, div_self (htiny.trans hwide).ne']

theorem strictMono_share (htiny : 0 < tiny) {a : Axis ℚ} (hwide : tiny < a.span) :
    letI := Coordinate.exact tiny
    StrictMono a.share := by
  intro x y hlt
  rw [share_exact, share_exact, if_pos hwide, if_pos hwide]
  exact div_lt_div_of_pos_right (sub_lt_sub_right hlt _) (htiny.trans hwide)

theorem monotone_share (htiny : 0 < tiny) (a : Axis ℚ) :
    letI := Coordinate.exact tiny
    Monotone a.share := by
  by_cases hwide : tiny < a.span
  · exact (strictMono_share htiny hwide).monotone
  · intro x y _
    rw [share_of_narrow hwide, share_of_narrow hwide]

/-- The coordinates on an axis have a share between zero and one. -/
theorem share_mem_Icc (htiny : 0 < tiny) (a : Axis ℚ) {x : ℚ}
    (hx : x ∈ Set.Icc a.start (a.start + a.span)) :
    letI := Coordinate.exact tiny
    a.share x ∈ Set.Icc 0 1 := by
  by_cases hwide : tiny < a.span
  · rw [← share_start hwide, ← share_end htiny hwide]
    exact ⟨monotone_share htiny a hx.1, monotone_share htiny a hx.2⟩
  · rw [share_of_narrow hwide]
    constructor <;> norm_num

variable {xs : List ℚ}

theorem share_fit_mem_Icc (htiny : 0 < tiny) {x : ℚ} (hx : x ∈ xs) :
    letI := Coordinate.exact tiny
    (Axis.fit xs).share x ∈ Set.Icc 0 1 := by
  obtain ⟨low, high, hlow, hhigh, hfit, -⟩ := exists_fit_eq tiny (List.ne_nil_of_mem hx)
  rw [hfit]
  refine share_mem_Icc htiny _ ⟨hlow.2 hx, ?_⟩
  rw [add_sub_cancel]
  exact hhigh.2 hx

variable {low high : ℚ} (hlow : low ∈ xs) (hhigh : high ∈ xs)
  (h : ∀ x ∈ xs, low ≤ x ∧ x ≤ high)
include hlow hhigh h

/-- An axis with a length has a share of zero at one end, and of one at the other. -/
theorem share_fit_of_wide (htiny : 0 < tiny) (hwide : tiny < high - low) :
    letI := Coordinate.exact tiny
    (Axis.fit xs).share low = 0 ∧ (Axis.fit xs).share high = 1 ∧
      StrictMono (Axis.fit xs).share := by
  rw [fit_of_ends tiny hlow hhigh h]
  refine ⟨share_start hwide, ?_, strictMono_share htiny hwide⟩
  have hend := share_end htiny (a := ⟨low, high - low⟩) hwide
  rwa [add_sub_cancel] at hend

theorem share_fit_of_narrow (hnarrow : ¬ tiny < high - low) (x : ℚ) :
    letI := Coordinate.exact tiny
    (Axis.fit xs).share x = 1 / 2 := by
  rw [fit_of_ends tiny hlow hhigh h]
  exact share_of_narrow hnarrow x

end

/-! ## 3. The canvas -/

section

variable {tiny : ℚ}

/-- The rectangle has an axis for each coordinate, whatever the points are. -/
theorem fit_eq {ps : List (Point ℚ)} (hsome : ps ≠ []) :
    letI := Coordinate.exact tiny
    Projection.fit ps = ⟨.fit (ps.map (·.x)), .fit (ps.map (·.y))⟩ := by
  have hx : ps.map (·.x) ≠ [] := by simpa using hsome
  obtain ⟨low, high, -, -, hbounds, -⟩ := exists_bounds_eq tiny hx
  unfold Projection.fit
  rw [hbounds]
  rfl

theorem apply_exact (f : Projection ℚ) (p : Point ℚ) :
    letI := Coordinate.exact tiny
    f.apply p = ⟨60 + f.horizontal.share p.x * 1080, 100 + (1 - f.vertical.share p.y) * 740⟩ := by
  simp [Projection.apply, width, height, margin, titleHeight]

theorem apply_fit {ps : List (Point ℚ)} (hsome : ps ≠ []) (p : Point ℚ) :
    letI := Coordinate.exact tiny
    (Projection.fit ps).apply p = ⟨60 + (Axis.fit (ps.map (·.x))).share p.x * 1080,
      100 + (1 - (Axis.fit (ps.map (·.y))).share p.y) * 740⟩ := by
  rw [fit_eq hsome, apply_exact]

/-- **Nothing is divided by zero.** -/
theorem apply_guarded (htiny : 0 < tiny) {ps : List (Point ℚ)} (hsome : ps ≠ []) (p : Point ℚ) :
    @Projection.apply (Option ℚ) (.guarded tiny)
        (@Projection.fit (Option ℚ) (.guarded tiny) (ps.map (.map some))) (p.map some) =
      (@Projection.apply ℚ (.exact tiny) (@Projection.fit ℚ (.exact tiny) ps) p).map some := by
  have hx : ps.map (·.x) ≠ [] := by simpa using hsome
  have hy : ps.map (·.y) ≠ [] := by simpa using hsome
  obtain ⟨_, _, -, -, -, hbounds⟩ := exists_bounds_eq tiny hx
  obtain ⟨left, right, -, -, hx, hx'⟩ := exists_fit_eq tiny hx
  obtain ⟨bottom, top, -, -, hy, hy'⟩ := exists_fit_eq tiny hy
  have hfit : @Projection.fit (Option ℚ) (.guarded tiny) (ps.map (.map some)) =
      ⟨⟨some left, some (right - left)⟩, ⟨some bottom, some (top - bottom)⟩⟩ := by
    have hxs : (ps.map (Point.map some)).map (·.x) = (ps.map (·.x)).map some := by simp
    have hys : (ps.map (Point.map some)).map (·.y) = (ps.map (·.y)).map some := by simp
    unfold Projection.fit
    rw [hxs, hys, hbounds, hx', hy']
    rfl
  rw [hfit, apply_fit hsome, hx, hy]
  simp only [Projection.apply, Point.map_x, Point.map_y, share_guarded htiny]
  simp [width, height, margin, titleHeight, Point.map]

end

/-! ## 4. The drawing area -/

/-- Some points are stretched over the drawing area. -/
structure Stretches (tiny : ℚ) (ps : List (Point ℚ)) (place : Point ℚ → Point ℚ) : Prop where
  within : ∀ p ∈ ps, (place p).x ∈ Set.Icc 60 1140 ∧ (place p).y ∈ Set.Icc 100 840
  rightwards : ∀ p q : Point ℚ, p.x ≤ q.x → (place p).x ≤ (place q).x
  downwards : ∀ p q : Point ℚ, p.y ≤ q.y → (place q).y ≤ (place p).y
  wide : ∀ p ∈ ps, ∀ q ∈ ps, (∀ r ∈ ps, p.x ≤ r.x ∧ r.x ≤ q.x) → tiny < q.x - p.x →
    (place p).x = 60 ∧ (place q).x = 1140 ∧ ∀ r s : Point ℚ, r.x < s.x → (place r).x < (place s).x
  narrow : ∀ p ∈ ps, ∀ q ∈ ps, (∀ r ∈ ps, p.x ≤ r.x ∧ r.x ≤ q.x) → ¬ tiny < q.x - p.x →
    ∀ r, (place r).x = 600
  high : ∀ p ∈ ps, ∀ q ∈ ps, (∀ r ∈ ps, p.y ≤ r.y ∧ r.y ≤ q.y) → tiny < q.y - p.y →
    (place p).y = 840 ∧ (place q).y = 100 ∧ ∀ r s : Point ℚ, r.y < s.y → (place s).y < (place r).y
  flat : ∀ p ∈ ps, ∀ q ∈ ps, (∀ r ∈ ps, p.y ≤ r.y ∧ r.y ≤ q.y) → ¬ tiny < q.y - p.y →
    ∀ r, (place r).y = 470

theorem stretches_fit {tiny : ℚ} (htiny : 0 < tiny) {ps : List (Point ℚ)} (hsome : ps ≠ []) :
    letI := Coordinate.exact tiny
    Stretches tiny ps (Projection.fit ps).apply := by
  have hx {p : Point ℚ} (hp : p ∈ ps) : p.x ∈ ps.map (·.x) := List.mem_map_of_mem hp
  have hy {p : Point ℚ} (hp : p ∈ ps) : p.y ∈ ps.map (·.y) := List.mem_map_of_mem hp
  constructor <;> simp only [apply_fit hsome]
  case within =>
    intro p hp
    have hshare := share_fit_mem_Icc htiny (hx hp)
    have hshare' := share_fit_mem_Icc htiny (hy hp)
    simp only [Set.mem_Icc] at hshare hshare' ⊢
    refine ⟨⟨?_, ?_⟩, ?_, ?_⟩ <;> linarith
  case rightwards =>
    intro p q hle
    have hshare := monotone_share htiny (@Axis.fit ℚ (.exact tiny) (ps.map (·.x))) hle
    linarith
  case downwards =>
    intro p q hle
    have hshare := monotone_share htiny (@Axis.fit ℚ (.exact tiny) (ps.map (·.y))) hle
    linarith
  case wide =>
    intro p hp q hq hall hwide
    obtain ⟨hstart, hend, hstrict⟩ :=
      share_fit_of_wide (hx hp) (hx hq) (by simpa using hall) htiny hwide
    refine ⟨by rw [hstart]; norm_num, by rw [hend]; norm_num, fun r s hlt => ?_⟩
    have hshare := hstrict hlt
    linarith
  case narrow =>
    intro p hp q hq hall hnarrow r
    rw [share_fit_of_narrow (hx hp) (hx hq) (by simpa using hall) hnarrow]
    norm_num
  case high =>
    intro p hp q hq hall hwide
    obtain ⟨hstart, hend, hstrict⟩ :=
      share_fit_of_wide (hy hp) (hy hq) (by simpa using hall) htiny hwide
    refine ⟨by rw [hstart]; norm_num, by rw [hend]; norm_num, fun r s hlt => ?_⟩
    have hshare := hstrict hlt
    linarith
  case flat =>
    intro p hp q hq hall hnarrow r
    rw [share_fit_of_narrow (hy hp) (hy hq) (by simpa using hall) hnarrow]
    norm_num

/-- **Points are stretched over the drawing area**, in their order, to its borders or onto its
middle, and nothing is divided by zero. -/
theorem fit_stretches {tiny : ℚ} (htiny : 0 < tiny) {ps : List (Point ℚ)} (hsome : ps ≠ []) :
    letI := Coordinate.exact tiny
    Stretches tiny ps (Projection.fit ps).apply ∧
      ∀ p, @Projection.apply (Option ℚ) (.guarded tiny)
          (@Projection.fit (Option ℚ) (.guarded tiny) (ps.map (.map some))) (p.map some) =
        ((Projection.fit ps).apply p).map some :=
  ⟨stretches_fit htiny hsome, apply_guarded htiny hsome⟩

theorem fit_stretches_two :
    letI := Coordinate.exact (1 / 4503599627370496)
    let ps : List (Point ℚ) := [⟨-1, 2⟩, ⟨3, 2⟩]
    Stretches (1 / 4503599627370496) ps (Projection.fit ps).apply ∧
      ∀ p, @Projection.apply (Option ℚ) (.guarded (1 / 4503599627370496))
          (@Projection.fit (Option ℚ) (.guarded (1 / 4503599627370496)) (ps.map (.map some)))
          (p.map some) =
        ((Projection.fit ps).apply p).map some :=
  fit_stretches (by positivity) (List.cons_ne_nil _ _)

example : letI := Coordinate.exact (1 / 4503599627370496)
    (Projection.fit [⟨-1, 2⟩, ⟨3, 2⟩]).apply (⟨3, 2⟩ : Point ℚ) = ⟨1140, 470⟩ := by cbv

end CodeDiagram.Drawing
