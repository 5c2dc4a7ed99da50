import PropertyMarket.Proofs.BestLine
import PropertyMarket.Slope

/-!
# Laws of slopes

Only the points with both coordinates count, and of those the slope is the slope of the line of best
fit. What the order of the points and their place do not matter for, the sums do not either: moving
the points adds to each sum of products a multiple of the others, and what is added cancels in the
spread of the points. So the months of one year give one slope, whether they are counted from the
beginning of the year or of the calendar.

## Main definitions

* `knownPoints` — the points of which both coordinates are known
* `StandFor` — pairs of values at hand that stand for points
* `slopeWithinYear` — the slope over the months of a year
* `IsFittedSlope` — what the slope of points is

## Main results

* `regressionSlope_affine` — the slope of points on another scale
* `StandFor.slopeOfPoints_eq` — the slope of pairs at hand is that of the points
* `StandFor.slopeWithinYear_eq` — and so it is with months since the beginning of the calendar
* `isFittedSlope_leastSquaresSlope` — the laws of slopes

## Implementation notes

All laws are proved of the formula with sums over points, as sums behave well under moving,
stretching and permuting, and are carried over to the formula that is computed by the theorem that
the two are equal. Points whose second coordinate is missing are dropped first, which commutes with
everything that is done to the others.
-/

namespace PropertyMarket

/-! ### Points on another scale

Moving the points along either axis changes each sum by a multiple of others, and what is added
cancels. A stretch along the second axis comes out as a factor. -/

section Sums

variable {α : Type}

/-- The sum of products of moved and stretched values. -/
theorem sum_products (f g : α → ℚ) (h c k : ℚ) (items : List α) :
    (items.map fun p => (f p + h) * (c * g p + k)).sum =
      c * (items.map fun p => f p * g p).sum + k * (items.map f).sum +
        h * c * (items.map g).sum + items.length * (h * k) := by
  have expanded : (fun p => (f p + h) * (c * g p + k)) =
      fun p => c * (f p * g p) + k * f p + h * c * g p + h * k := by
    funext p
    ring
  rw [expanded, sum_combination]

/-- The sum of moved and stretched values. -/
theorem sum_affine (g : α → ℚ) (c k : ℚ) (items : List α) :
    (items.map fun p => c * g p + k).sum = c * (items.map g).sum + items.length * k := by
  simpa using sum_combination g g g c 0 0 k items

end Sums

/-- Where the points are moved to does not matter, and a stretch along the second coordinate
stretches the slope. -/
theorem regressionSlope_affine (points : List (ℚ × ℚ)) (h c k : ℚ) :
    regressionSlope (points.map fun p => (p.1 + h, c * p.2 + k)) =
      (regressionSlope points).map (c * ·) := by
  have x := sum_affine Prod.fst 1 h points
  have y := sum_affine Prod.snd c k points
  have xx := sum_products Prod.fst Prod.fst h 1 h points
  have xy := sum_products Prod.fst Prod.snd h c k points
  simp only [one_mul] at x xx
  have spread : points.length * (points.map fun p => (p.1 + h) * (p.1 + h)).sum -
      (points.map fun p => p.1 + h).sum * (points.map fun p => p.1 + h).sum =
      points.length * (points.map fun p => p.1 * p.1).sum -
        (points.map Prod.fst).sum * (points.map Prod.fst).sum := by
    rw [x, xx]
    ring
  have joint : points.length * (points.map fun p => (p.1 + h) * (c * p.2 + k)).sum -
      (points.map fun p => p.1 + h).sum * (points.map fun p => c * p.2 + k).sum =
      c * (points.length * (points.map fun p => p.1 * p.2).sum -
        (points.map Prod.fst).sum * (points.map Prod.snd).sum) := by
    rw [x, y, xy]
    ring
  simp only [regressionSlope, List.length_map, List.map_map, Function.comp_def, spread, joint]
  split
  · rfl
  · rw [Option.map_some, mul_div_assoc]

/-! ### Points without a second coordinate

A month may have no number. It then does not count for the slope, and neither does it for whether
there is one. -/

/-- The points whose second coordinate is known; the others take no part in a slope. -/
def knownPoints (points : List (ℚ × Option ℚ)) : List (ℚ × ℚ) :=
  points.filterMap fun p => p.2.map fun y => (p.1, y)

theorem knownPoints_map (f g : ℚ → ℚ) (points : List (ℚ × Option ℚ)) :
    knownPoints (points.map fun p => (f p.1, p.2.map g)) =
      (knownPoints points).map fun p => (f p.1, g p.2) := by
  rw [knownPoints, knownPoints, List.filterMap_map, List.map_filterMap]
  refine List.filterMap_congr fun p _ => ?_
  cases h : p.2 <;> simp [h]

/-- On another scale the slope is on that scale. -/
theorem leastSquaresSlope_affine (points : List (ℚ × Option ℚ)) (h c k : ℚ) :
    leastSquaresSlope (knownPoints (points.map fun p => (p.1 + h, p.2.map fun y => c * y + k))) =
      (leastSquaresSlope (knownPoints points)).map (c * ·) := by
  rw [knownPoints_map (· + h) (fun y => c * y + k), leastSquaresSlope_eq, leastSquaresSlope_eq,
    regressionSlope_affine]

/-- Points have less than two first coordinates exactly if they do not differ in them. -/
theorem card_lt_two_iff (points : List (ℚ × ℚ)) :
    (points.map Prod.fst).toFinset.card < 2 ↔ ∀ p ∈ points, ∀ q ∈ points, p.1 = q.1 := by
  rw [Nat.lt_succ_iff, Finset.card_le_one]
  simp only [List.mem_toFinset, List.forall_mem_map]

/-- Pairs of values at hand stand for points: the first coordinate is a number, and the second one
is a number or null. -/
structure StandFor (given : List (Value × Value)) (points : List (ℚ × Option ℚ)) : Prop where
  valued : ∀ p ∈ given, p.2.Valued
  coordinates : given.map (fun p => (p.1.rational?, p.2.rational?)) =
    points.map fun p => (some p.1, p.2)

/-- The slope of pairs at hand is the slope of the points that they stand for. -/
theorem StandFor.slopeOfPoints_eq {given : List (Value × Value)} {points : List (ℚ × Option ℚ)}
    (h : StandFor given points) :
    slopeOfPoints given = .ok (leastSquaresSlope (knownPoints points)) := by
  have first : ∀ p ∈ given, p.1.rational? = some (p.1.rational?.getD 0) := by
    intro p hp
    have there : (p.1.rational?, p.2.rational?) ∈ points.map fun p => (some p.1, p.2) :=
      h.coordinates ▸ List.mem_map_of_mem hp
    obtain ⟨q, -, same⟩ := List.mem_map.1 there
    rw [← (Prod.mk.inj same).1, Option.getD_some]
  have known : (given.filterMap fun p => p.2.rational?.map fun q => (p.1.rational?.getD 0, q)) =
      knownPoints points := by
    have read := congrArg (List.filterMap fun p : Option ℚ × Option ℚ =>
      p.2.map fun q => (p.1.getD 0, q)) h.coordinates
    rwa [List.filterMap_map, List.filterMap_map] at read
  rw [← known, ← PropertyMarket.slopeOfPoints_eq first h.valued]
  exact congrArg slopeOfPoints (List.map_id given).symm

/-- The slope of numbers in the months of a year, with the months counted from the beginning of the
calendar as the program counts them. A month that has no number is dropped. -/
def slopeWithinYear (year : ℤ) (months : List (ℤ × Value)) : Except Fault (Option ℚ) := do
  let timed ← months.mapM fun p => do return (← monthOrdinal (.int year) (.int p.1), p.2)
  slopeOfPoints timed

/-- Within one year, the months might as well be counted from the beginning of the year: the two
ways of counting differ by the same number of months for all points. -/
theorem StandFor.slopeWithinYear_eq {months : List (ℤ × Value)} {points : List (ℚ × Option ℚ)}
    (h : StandFor (months.map fun p => (Value.int p.1, p.2)) points) (year : ℤ) :
    slopeWithinYear year months = .ok (leastSquaresSlope (knownPoints points)) := by
  have timed : months.mapM (fun p : ℤ × Value => do
      return (← monthOrdinal (.int year) (.int p.1), p.2)) =
      (.ok (months.map fun p => (Value.int (year * monthsInYear + p.1), p.2)) : Except Fault _) :=
    Outcome.mapM_eq_ok_map fun p _ => rfl
  have moved : StandFor (months.map fun p => (Value.int (year * monthsInYear + p.1), p.2))
      (points.map fun p => (p.1 + year * monthsInYear, p.2.map fun y => 1 * y + 0)) := by
    refine ⟨?_, ?_⟩
    · have valued := h.valued
      simpa only [List.forall_mem_map] using valued
    · have read := congrArg (List.map fun p : Option ℚ × Option ℚ =>
        (p.1.map (· + (year * monthsInYear : ℚ)), p.2)) h.coordinates
      simp only [List.map_map, Function.comp_def, Value.rational?_int, Option.map_some] at read ⊢
      simp only [one_mul, add_zero, Option.map_id', ← read]
      push_cast
      simp only [add_comm]
  rw [slopeWithinYear, timed, Outcome.ok_bind, moved.slopeOfPoints_eq, leastSquaresSlope_affine]
  simp

/-! ### The laws together

One structure for what is claimed of the slope of points, so that a single theorem says it of all
lists of points. -/

/-- What a slope is of points, of which some may have no second coordinate. Those that have none do
not count. -/
structure IsFittedSlope (points : List (ℚ × Option ℚ)) (slope : Option ℚ) : Prop where
  /-- It is what is computed of values at hand that stand for the points. -/
  computed : ∀ given, StandFor given points → slopeOfPoints given = .ok slope
  /-- There is none exactly if the points have less than two different first coordinates. -/
  none_iff : slope = none ↔ ((knownPoints points).map Prod.fst).toFinset.card < 2
  /-- With the intercept of the line through the means, it is the one best line. -/
  isBestLine : ∀ b, slope = some b →
    IsBestLine (knownPoints points) (meanIntercept (knownPoints points) b) b
  /-- The order of the points does not matter. -/
  perm : ∀ others : List (ℚ × Option ℚ), others.Perm points →
    leastSquaresSlope (knownPoints others) = slope
  /-- Where the points are moved to does not matter. -/
  moved : ∀ h k,
    leastSquaresSlope (knownPoints (points.map fun p => (p.1 + h, p.2.map (· + k)))) = slope
  /-- Within one year, the months since the beginning of the calendar are as good as the months. -/
  withinYear : ∀ (months : List (ℤ × Value)) (year : ℤ),
    StandFor (months.map fun p => (Value.int p.1, p.2)) points →
      slopeWithinYear year months = .ok slope
  /-- What the second coordinates are multiplied by multiplies the slope. -/
  scaled : ∀ c, leastSquaresSlope (knownPoints (points.map fun p => (p.1, p.2.map (c * ·)))) =
    slope.map (c * ·)

/-- **The slope that is computed is that of the line of best fit**, and has its laws. There is none
exactly if the points have fewer than two different first coordinates. Otherwise no line has a
smaller sum of squares and every line of another slope has a greater one; the order of the points
does not matter, moving them changes nothing, and what multiplies the second coordinates multiplies
the slope. -/
theorem isFittedSlope_leastSquaresSlope (points : List (ℚ × Option ℚ)) :
    IsFittedSlope points (leastSquaresSlope (knownPoints points)) where
  computed _ given := given.slopeOfPoints_eq
  none_iff := by rw [leastSquaresSlope_eq, regressionSlope_eq_none_iff, card_lt_two_iff]
  isBestLine b hb := isBestLine_of_regressionSlope ((leastSquaresSlope_eq _).symm.trans hb)
  perm others perm := by
    rw [leastSquaresSlope_eq, leastSquaresSlope_eq]
    exact regressionSlope_eq_of_perm (perm.filterMap _)
  moved h k := by simpa using leastSquaresSlope_affine points h 1 k
  withinYear months year stand := stand.slopeWithinYear_eq year
  scaled c := by simpa using leastSquaresSlope_affine points 0 c 0

/-- Four months of which one has no number and one is there twice. -/
theorem isFittedSlope_fourMonths :
    slopeWithinYear 2024 [(1, .int 10), (2, .null), (3, .double 16), (3, .int 12)] =
      .ok (some 2) ∧
    IsBestLine [(1, 10), (3, 16), (3, 12)] 8 2 := by
  have laws := isFittedSlope_leastSquaresSlope [(1, some 10), (2, none), (3, some 16), (3, some 12)]
  have two : leastSquaresSlope (knownPoints [(1, some 10), (2, none), (3, some 16), (3, some 12)]) =
      some (2 : ℚ) := by decide +kernel
  rw [two] at laws
  constructor
  · refine laws.withinYear _ 2024 ⟨?_, by decide +kernel⟩
    have sixteen : (Value.double 16).rational? = some 16 := by decide +kernel
    simp [Value.Valued, sixteen, Value.rational?_int]
  · have best := laws.isBestLine 2 rfl
    have eight : meanIntercept (knownPoints [(1, some 10), (2, none), (3, some 16), (3, some 12)])
      2 = 8 := by decide +kernel
    rwa [eight] at best

end PropertyMarket
