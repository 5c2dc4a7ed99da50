import PropertyMarket.Proofs.Regression

/-!
# The line of best fit

What is called the slope of the line of best fit is computed from sums over the points. That it is
what it is called is a statement about all lines: of all of them, exactly one has the least sum of
squared distances from the points, if any two points differ in their first coordinate, and the slope
of this line is the one that is computed. If no two points do, many lines are as good as each other,
and no slope is computed.

## Main definitions

* `squaredError` — the sum of the squared distances of points from a line
* `IsBestLine` — the only line of the least squared error

## Main results

* `regressionSlope_eq_none_iff` — there is no slope exactly if all points have one first coordinate
* `isBestLine_of_regressionSlope` — a slope that is computed is that of the best line
* `regressionSlope_eq_of_perm` — whatever the order of the points

## Implementation notes

The argument needs no calculus. `squaredError_eq` writes the error of any line as the error of a
given one, and a term that is linear in the difference of the two, and a sum of squares. The linear
term vanishes for the line whose distances cancel out, plainly and weighted; the squares all vanish
only if the two lines meet at every point, and two lines that meet at points with different first
coordinates are the same. The slope that is computed is the one for which the distances cancel out,
if the line goes through the means.

Everything is in rational numbers, so that equalities between sums are exact. What the store and the
assistant round, they round afterwards.
-/

namespace PropertyMarket

/-- The sum of the squared distances, along the second coordinate, of points from the line with an
intercept and a slope. -/
def squaredError (points : List (ℚ × ℚ)) (intercept slope : ℚ) : ℚ :=
  (points.map fun p => (p.2 - intercept - slope * p.1) ^ 2).sum

/-- The line is better than every other line, so there is at most one that is. Where all points have
one first coordinate there is none. -/
def IsBestLine (points : List (ℚ × ℚ)) (intercept slope : ℚ) : Prop :=
  ∀ a b, (a, b) ≠ (intercept, slope) →
    squaredError points intercept slope < squaredError points a b

section Points

variable {points : List (ℚ × ℚ)} {a b : ℚ}

theorem sum_sq_nonneg {α : Type} (f : α → ℚ) (items : List α) :
    0 ≤ (items.map fun p => f p ^ 2).sum :=
  List.sum_nonneg (by simpa using fun q _ => sq_nonneg (f q))

/-- Of squares, only zeros have the sum zero. This is what makes the best line unique. -/
theorem sum_sq_eq_zero_iff {α : Type} (f : α → ℚ) (items : List α) :
    (items.map fun p => f p ^ 2).sum = 0 ↔ ∀ p ∈ items, f p = 0 := by
  induction items with
  | nil => simp
  | cons p items ih =>
    rw [List.map_cons, List.sum_cons, List.forall_mem_cons, ← ih,
      add_eq_zero_iff_of_nonneg (sq_nonneg _) (sum_sq_nonneg f items), sq_eq_zero_iff]

/-- The spread of points is zero exactly if they do not differ in `x`. -/
theorem spread_eq_zero_iff (points : List (ℚ × ℚ)) :
    points.length * (points.map fun p => p.1 * p.1).sum -
        (points.map Prod.fst).sum * (points.map Prod.fst).sum = 0 ↔
      ∀ p ∈ points, ∀ q ∈ points, p.1 = q.1 := by
  obtain rfl | nonempty := eq_or_ne points []
  · simp
  · have length_ne : (points.length : ℚ) ≠ 0 := by
      exact_mod_cast (List.length_pos_of_ne_nil nonempty).ne'
    have deviations := sum_sq_eq_zero_iff
      (fun p : ℚ × ℚ => p.1 - (points.map Prod.fst).sum / points.length) points
    simp only [sq] at deviations
    rw [← length_mul_sum_deviations Prod.fst Prod.fst nonempty, mul_eq_zero, or_iff_right length_ne,
      deviations]
    constructor
    · intro mean p hp q hq
      rw [sub_eq_zero.1 (mean p hp), sub_eq_zero.1 (mean q hq)]
    · intro same p hp
      have total : (points.map Prod.fst).sum = points.length * p.1 := by
        rw [List.sum_eq_card_nsmul (points.map Prod.fst) p.1, List.length_map, nsmul_eq_mul]
        intro x hx
        obtain ⟨q, hq, rfl⟩ := List.mem_map.1 hx
        exact same q hq p hp
      rw [total, mul_div_cancel_left₀ _ length_ne, sub_self]

/-- The order of the points does not matter, since only sums over them are taken. -/
theorem regressionSlope_eq_of_perm {points' : List (ℚ × ℚ)} (perm : points'.Perm points) :
    regressionSlope points' = regressionSlope points := by
  have sums (f : ℚ × ℚ → ℚ) : (points'.map f).sum = (points.map f).sum := (perm.map f).sum_eq
  simp only [regressionSlope, perm.length_eq, sums]

/-- **There is no slope exactly if the points do not differ in `x`.** In particular there is none of
a single point, or of no points at all. -/
theorem regressionSlope_eq_none_iff :
    regressionSlope points = none ↔ ∀ p ∈ points, ∀ q ∈ points, p.1 = q.1 := by
  rw [← spread_eq_zero_iff, regressionSlope]
  dsimp only
  split <;> simp_all

/-- The error of a line by that of another one, and by how far the two are apart. The two sums in
the middle are those of the distances from the other line, plain and weighted. -/
theorem squaredError_eq (points : List (ℚ × ℚ)) (a b a' b' : ℚ) :
    squaredError points a' b' = squaredError points a b +
      2 * ((a - a') * (points.map fun p => p.2 - a - b * p.1).sum +
        (b - b') * (points.map fun p => p.1 * (p.2 - a - b * p.1)).sum) +
      (points.map fun p => (a - a' + (b - b') * p.1) ^ 2).sum := by
  simp only [squaredError]
  induction points with
  | nil => simp
  | cons p points ih =>
    simp only [List.map_cons, List.sum_cons, ih]
    ring

/-- A line whose distances from the points cancel out, also when weighted by `x`, is the best one if
the points differ in `x`. -/
theorem isBestLine_of_normal (differ : ∃ p ∈ points, ∃ q ∈ points, p.1 ≠ q.1)
    (balanced : (points.map fun p => p.2 - a - b * p.1).sum = 0)
    (weighted : (points.map fun p => p.1 * (p.2 - a - b * p.1)).sum = 0) :
    IsBestLine points a b := by
  intro a' b' other
  have error := squaredError_eq points a b a' b'
  rw [balanced, weighted, mul_zero, mul_zero, add_zero, mul_zero, add_zero] at error
  have apart := sum_sq_nonneg (fun p : ℚ × ℚ => a - a' + (b - b') * p.1) points
  refine lt_of_le_of_ne (by linarith) fun same => other ?_
  have zero : (points.map fun p => (a - a' + (b - b') * p.1) ^ 2).sum = 0 := by linarith
  have meets := (sum_sq_eq_zero_iff (fun p : ℚ × ℚ => a - a' + (b - b') * p.1) points).1 zero
  -- Two lines that meet above two different points are the same.
  obtain ⟨p, hp, q, hq, differ⟩ := differ
  have slopes : (b - b') * (p.1 - q.1) = 0 := by
    have := meets p hp
    have := meets q hq
    linarith
  have slope : b - b' = 0 := (mul_eq_zero.1 slopes).resolve_right (sub_ne_zero.2 differ)
  have intercept := meets p hp
  rw [slope, zero_mul, add_zero] at intercept
  rw [sub_eq_zero.1 slope, sub_eq_zero.1 intercept]

/-- The sum of the distances of points from a line. -/
theorem sum_residuals (points : List (ℚ × ℚ)) (a b : ℚ) :
    (points.map fun p => p.2 - a - b * p.1).sum =
      (points.map Prod.snd).sum - points.length * a - b * (points.map Prod.fst).sum := by
  have expanded : (fun p : ℚ × ℚ => p.2 - a - b * p.1) =
      fun p => 1 * p.2 + -b * p.1 + 0 * p.1 + -a := by
    funext p
    ring
  rw [expanded, sum_combination]
  ring

/-- The same, each distance weighted by the first coordinate. -/
theorem sum_weighted_residuals (points : List (ℚ × ℚ)) (a b : ℚ) :
    (points.map fun p => p.1 * (p.2 - a - b * p.1)).sum =
      (points.map fun p => p.1 * p.2).sum - a * (points.map Prod.fst).sum -
        b * (points.map fun p => p.1 * p.1).sum := by
  have expanded : (fun p : ℚ × ℚ => p.1 * (p.2 - a - b * p.1)) =
      fun p => 1 * (p.1 * p.2) + -a * p.1 + -b * (p.1 * p.1) + 0 := by
    funext p
    ring
  rw [expanded, sum_combination]
  ring

/-- The intercept of the line with a slope through the means of points. -/
def meanIntercept (points : List (ℚ × ℚ)) (slope : ℚ) : ℚ :=
  (points.map Prod.snd).sum / points.length - slope * ((points.map Prod.fst).sum / points.length)

/-- **A slope that is computed is the slope of the best line**, which goes through the means. As
that line is the only one, no other slope would do. -/
theorem isBestLine_of_regressionSlope (h : regressionSlope points = some b) :
    IsBestLine points (meanIntercept points b) b := by
  have differ : ∃ p ∈ points, ∃ q ∈ points, p.1 ≠ q.1 := by
    by_contra same
    push Not at same
    rw [regressionSlope_eq_none_iff.2 same] at h
    nomatch h
  have length_ne : (points.length : ℚ) ≠ 0 := by
    obtain ⟨p, hp, -⟩ := differ
    exact_mod_cast (List.length_pos_of_mem hp).ne'
  have spread_ne : points.length * (points.map fun p => p.1 * p.1).sum -
      (points.map Prod.fst).sum * (points.map Prod.fst).sum ≠ 0 := by
    rw [ne_eq, spread_eq_zero_iff]
    push Not
    exact differ
  have slope : b * (points.length * (points.map fun p => p.1 * p.1).sum -
      (points.map Prod.fst).sum * (points.map Prod.fst).sum) =
      points.length * (points.map fun p => p.1 * p.2).sum -
        (points.map Prod.fst).sum * (points.map Prod.snd).sum := by
    rw [regressionSlope] at h
    dsimp only at h
    rw [if_neg spread_ne] at h
    rw [← Option.some.inj h, div_mul_cancel₀ _ spread_ne]
  refine isBestLine_of_normal differ ?_ ?_
  · rw [sum_residuals, meanIntercept]
    field_simp
    ring
  · rw [sum_weighted_residuals, meanIntercept]
    generalize (points.map fun p => p.1 * p.1).sum = xx at slope ⊢
    field_simp
    linarith

end Points

end PropertyMarket
