import Mathlib.Algebra.BigOperators.Group.List.Basic
import Mathlib.Algebra.BigOperators.Ring.List
import PropertyMarket.Proofs.Cell

/-!
# Lines of best fit

The slope of a line of best fit has two formulas. Of rows at hand it is computed from the deviations
of the points from their means, and the store computes it from sums over all points. In exact
arithmetic they are the same, and the one has no value exactly where the other has none: where the
points do not differ in their first coordinate. Points without a measured value do not count in
either.

## Main definitions

* `Value.Measured`, `Value.Valued` — a finite number or null, of a kind that is stored or of any
* `Dialect.Exact` — a store that loses nothing when a number changes its kind

## Main results

* `leastSquaresSlope_eq` — both formulas give the same slope
* `slopeOfPoints_eq`, `Dialect.slope_eq` — the slope of measured values at hand, and in the store

## Implementation notes

Sums over points are all of one form, a sum of a linear combination of some quantities, and
`sum_combination` splits such a sum into the sums of the quantities. The two formulas are then
related by algebra in these sums, with the number of points as a factor in place of the means, so
that nothing has to be divided before the end.
-/

namespace PropertyMarket

/-! ### Two formulas for one line

The deviations from the means are products of differences, and the sum of such products is a
difference of products of sums. What the one formula divides by is zero exactly if what the other
one divides by is. -/

section Sums

variable {α : Type} {items : List α}

/-- A sum of linear combinations of three quantities is the combination of their sums. The laws of
sums over points below are this one, each with quantities of its own. -/
theorem sum_combination (f g h : α → ℚ) (a b c k : ℚ) (items : List α) :
    (items.map fun p => a * f p + b * g p + c * h p + k).sum =
      a * (items.map f).sum + b * (items.map g).sum + c * (items.map h).sum + items.length * k := by
  rw [List.sum_map_add, List.sum_map_add, List.sum_map_add, List.sum_map_mul_left,
    List.sum_map_mul_left, List.sum_map_mul_left, List.map_const', List.sum_replicate, nsmul_eq_mul]

/-- The sum of products of deviations from two numbers, whatever these numbers are. -/
theorem sum_deviations (f g : α → ℚ) (a b : ℚ) (items : List α) :
    (items.map fun p => (f p - a) * (g p - b)).sum =
      (items.map fun p => f p * g p).sum - b * (items.map f).sum - a * (items.map g).sum +
        items.length * (a * b) := by
  have expanded : (fun p => (f p - a) * (g p - b)) =
      fun p => 1 * (f p * g p) + -b * f p + -a * g p + a * b := by
    funext p
    ring
  rw [expanded, sum_combination]
  ring

/-- The same for the deviations from the two means, without a division. -/
theorem length_mul_sum_deviations (f g : α → ℚ) (nonempty : items ≠ []) :
    items.length * (items.map fun p => (f p - (items.map f).sum / items.length) *
        (g p - (items.map g).sum / items.length)).sum =
      items.length * (items.map fun p => f p * g p).sum -
        (items.map f).sum * (items.map g).sum := by
  have length_ne : (items.length : ℚ) ≠ 0 := by
    exact_mod_cast (List.length_pos_of_ne_nil nonempty).ne'
  rw [sum_deviations]
  field_simp
  ring

theorem scalar_sum_eq (xs : List ℚ) : Scalar.sum xs = xs.sum := by
  have same : Scalar.sum xs = xs.foldl (· + ·) 0 := rfl
  rw [same, List.sum_eq_foldl]

theorem scalar_mean_eq (xs : List ℚ) : Scalar.mean xs = xs.sum / xs.length := by
  have same : Scalar.mean xs = Scalar.sum xs / ((xs.length : ℤ) : ℚ) := rfl
  rw [same, scalar_sum_eq, Int.cast_natCast]

theorem scalar_isZero_iff (x : ℚ) : Scalar.isZero x = true ↔ x = 0 := by
  have same : Scalar.isZero x = (decide (x ≤ 0) && decide (0 ≤ x)) := rfl
  rw [same, Bool.and_eq_true, decide_eq_true_iff, decide_eq_true_iff, le_antisymm_iff]

end Sums

/-- Fewer than two points do not differ in `x`. -/
theorem regressionSlope_eq_none {points : List (ℚ × ℚ)} (few : points.length < 2) :
    regressionSlope points = none := by
  match points with
  | [] => simp [regressionSlope]
  | [p] => simp [regressionSlope]

/-- **The slope from deviations is the slope from sums**, and there is the one if there is the
other. -/
theorem leastSquaresSlope_eq (points : List (ℚ × ℚ)) :
    leastSquaresSlope points = regressionSlope points := by
  by_cases few : points.length < 2
  · rw [leastSquaresSlope, if_pos few, regressionSlope_eq_none few]
  · have nonempty : points ≠ [] := by
      rintro rfl
      exact few (by decide)
    have length_ne : (points.length : ℚ) ≠ 0 := by
      exact_mod_cast (List.length_pos_of_ne_nil nonempty).ne'
    have xx := length_mul_sum_deviations Prod.fst Prod.fst nonempty
    have xy := length_mul_sum_deviations Prod.fst Prod.snd nonempty
    have deviations : leastSquaresSlope points =
        let meanX := (points.map Prod.fst).sum / points.length
        let meanY := (points.map Prod.snd).sum / points.length
        let xx := (points.map fun p => (p.1 - meanX) * (p.1 - meanX)).sum
        let xy := (points.map fun p => (p.1 - meanX) * (p.2 - meanY)).sum
        if xx = 0 then none else some (xy / xx) := by
      simp only [leastSquaresSlope, if_neg few, scalar_sum_eq, scalar_mean_eq, List.length_map,
        scalar_isZero_iff]
    rw [deviations, regressionSlope]
    dsimp only
    rw [← xx, ← xy, mul_div_mul_left _ _ length_ne]
    simp only [mul_eq_zero, length_ne, false_or]

/-! ### What is measured

Rows hold numbers of several kinds, and null. A column that is stored has integers or numbers in
double precision; values at hand may also be of other kinds, as long as they have a value. -/

/-- A finite number or null, of one of the kinds that a stored column has. Texts, truth values and
collections are not measured. -/
inductive Value.Measured : Value → Prop
  | null : Measured .null
  | int (n : ℤ) : Measured (.int n)
  | double {x : Double} (finite : x.isFinite) : Measured (.double x)

namespace Value

theorem rational?_int (n : ℤ) : (Value.int n).rational? = some (n : ℚ) := by
  have same : (Value.int n).rational? = some (mkRat n 1) := rfl
  rw [same, Rat.mkRat_eq_div, Nat.cast_one, div_one]

theorem rational?_double {x : Double} (finite : x.isFinite) :
    (Value.double x).rational? = some x.value := Double.toRat?_eq finite

/-- Null, or a number that has a value. Truth values and decimals have one too; infinities and NaN
have none. -/
def Valued (v : Value) : Prop := v = .null ∨ v.rational?.isSome = true

variable {v : Value}

theorem Measured.valued (h : v.Measured) : v.Valued := by
  cases h with
  | null => exact .inl rfl
  | int n => exact .inr (by rw [rational?_int]; rfl)
  | double finite => exact .inr (by rw [rational?_double finite]; rfl)

theorem Valued.isNull_eq (h : v.Valued) : v.isNull = v.rational?.isNone := by
  obtain rfl | number := h
  · rfl
  · cases v with
    | null => rfl
    | text | list | record => nomatch number
    | bool | int | double | decimal =>
      rw [Option.isNone_eq_false_iff.2 number]
      rfl

theorem Valued.isList_eq (h : v.Valued) : Grid.isList v = false := by
  obtain rfl | number := h
  · rfl
  · cases v with
    | list => nomatch number
    | _ => rfl

theorem toCell_eq {q : ℚ} (hq : v.rational? = some q) :
    (v.toCell : Except Fault ℚ) = .ok q := by
  have converted (x : Number) (hx : x.toRat? = some q) :
      ((Scalar.ofNumber x : Except Number.Failure ℚ).mapError Fault.ofArithmetic) = .ok q := by
    simp [Scalar.ofNumber, hx, Except.mapError]
  cases v with
  | null | text | list | record => nomatch hq
  | bool b => exact converted (.flag b) hq
  | int n => exact converted (.int n) hq
  | double x => exact converted (.double x) hq
  | decimal d => exact converted (.decimal d) hq

end Value

/-! ### Rows at hand

The points that are left after null has been dropped are those with both of their coordinates, and
the first coordinate is never null. -/

theorem inPairs_flatMap {α β : Type} (a b : α → β) (items : List α) :
    inPairs (items.flatMap fun p => [a p, b p]) = items.map fun p => (a p, b p) := by
  induction items with
  | nil => rfl
  | cons p items ih =>
    rw [List.map_cons, ← ih]
    rfl

section Points

variable {α : Type} {items : List α} {x y : α → Value} {a : α → ℚ}

/-- Of points, those that have both of their coordinates. -/
theorem slopeOfPoints_of_filter {points : List (Value × Value)}
    (kept : points.filter (fun p => !p.1.isNull && !p.2.isNull) = items.map fun p => (x p, y p))
    (first : ∀ p ∈ items, (x p).rational? = some (a p))
    (known : ∀ p ∈ items, (y p).rational?.isSome) :
    slopeOfPoints points =
      .ok (leastSquaresSlope (items.map fun p => (a p, (y p).rational?.getD 0))) := by
  have flat : (items.map fun p => (x p, y p)).flatMap (fun q => [q.1, q.2]) =
      items.flatMap fun p => [x p, y p] := List.flatMap_map _ _ _
  have numbers : (items.flatMap fun p => [x p, y p]).mapM (Value.toCell (α := ℚ)) =
      .ok (items.flatMap fun p => [a p, (y p).rational?.getD 0]) := by
    refine Outcome.mapM_flatMap_eq_ok fun p hp => ?_
    obtain ⟨q, hq⟩ := Option.isSome_iff_exists.1 (known p hp)
    rw [List.mapM_cons, List.mapM_cons, Value.toCell_eq (first p hp), Value.toCell_eq hq, hq]
    rfl
  have scalars : ∀ q ∈ items.map (fun p => (x p, y p)),
      Grid.isList q.1 = false ∧ Grid.isList q.2 = false := by
    intro q hq
    obtain ⟨p, hp, rfl⟩ := List.mem_map.1 hq
    exact ⟨Value.Valued.isList_eq (.inr (by rw [first p hp]; rfl)),
      Value.Valued.isList_eq (.inr (known p hp))⟩
  rw [slopeOfPoints, kept]
  cases items with
  | nil =>
    have empty : Grid.ofPairs [] = .ok ⟨[0], []⟩ := rfl
    rw [List.map_nil, empty, List.map_nil]
    rfl
  | cons p items =>
    rw [List.map_cons] at flat scalars ⊢
    rw [Grid.ofPairs_eq scalars, Outcome.ok_bind, Grid.numbers, flat, numbers, Outcome.ok_bind]
    dsimp only
    rw [inPairs_flatMap]
    rfl

/-- The slope through the points that have both of their coordinates, as it is computed of values at
hand. -/
theorem slopeOfPoints_eq (first : ∀ p ∈ items, (x p).rational? = some (a p))
    (valued : ∀ p ∈ items, (y p).Valued) :
    slopeOfPoints (items.map fun p => (x p, y p)) =
      .ok (leastSquaresSlope (items.filterMap fun p =>
        (y p).rational?.map fun q => (a p, q))) := by
  have present : (items.map fun p => (x p, y p)).filter
      (fun p => !p.1.isNull && !p.2.isNull) =
      (items.filter fun p => (y p).rational?.isSome).map fun p => (x p, y p) := by
    rw [List.filter_map]
    refine congrArg _ (List.filter_congr fun p hp => ?_)
    have number : (x p).Valued := .inr (by rw [first p hp]; rfl)
    rw [Function.comp_apply, number.isNull_eq, (valued p hp).isNull_eq, first p hp,
      Option.not_isNone, Option.not_isNone, Option.isSome_some, Bool.true_and]
  have points : (items.filterMap fun p => (y p).rational?.map fun q => (a p, q)) =
      (items.filter fun p => (y p).rational?.isSome).map
        fun p => (a p, (y p).rational?.getD 0) := by
    clear present valued first
    induction items with
    | nil => rfl
    | cons p items ih =>
      cases hq : (y p).rational? with
      | none => simp [hq, ih]
      | some q => simp [hq, ih]
  rw [points, slopeOfPoints_of_filter present]
  · exact fun p hp => first p (List.mem_of_mem_filter hp)
  · exact fun p hp => (List.mem_filter.1 hp).2

end Points

/-! ### The store

A store whose numbers are exact computes the same slope. It drops a point without a coordinate as
well, so it is left with the same points. -/

/-- Numbers change their kind without a loss. It is what has to be asked of a store for its slopes
to be the exact ones. -/
structure Dialect.Exact (d : Dialect) : Prop where
  toDouble_eq : ∀ x, d.toDouble x = some x
  toExact_eq : ∀ x, d.toExact x = x

namespace Dialect

variable {d : Dialect}

theorem Exact.double_eq (h : d.Exact) (x : ℚ) : d.double x = .ok (.number .double x) := by
  rw [double, h.toDouble_eq]
  rfl

/-- What is measured, as a number in double precision. -/
theorem Exact.cast_measured (h : d.Exact) {v : Value} (measured : v.Measured) :
    ∃ cell, Cell.ofValue v = .ok cell ∧
      d.cast cell .float = .ok (v.rational?.elim .null (.number .double)) := by
  cases measured with
  | null => exact ⟨.null, rfl, rfl⟩
  | int n =>
    refine ⟨.int n, rfl, ?_⟩
    rw [Value.rational?_int]
    exact h.double_eq n
  | @double x finite =>
    refine ⟨.number .double x.value, Cell.ofValue_double finite, ?_⟩
    rw [Value.rational?_double finite]
    exact h.double_eq x.value

/-- The slope that the store computes is the one through the points that have both of their
coordinates, in double precision, and null if there is none. -/
theorem slope_eq {α : Type} (items : List α) (x : α → ℚ) (y : α → Option ℚ) :
    d.slope (items.map fun p => ((y p).elim .null (.number .double), .number .double (x p))) =
      (regressionSlope (items.filterMap fun p => (y p).map fun q => (x p, q))).elim (.ok .null)
        d.double := by
  have found : (items.map fun p =>
      (((y p).elim .null (.number .double) : Cell), (Cell.number .double (x p)))).mapM
      (fun p => do return (← Cell.number? p.2, ← Cell.number? p.1)) =
      .ok (items.map fun p => (some (Cell.Kind.double, x p), (y p).map fun q => (.double, q))) := by
    rw [List.mapM_map]
    refine Outcome.mapM_eq_ok_map fun p _ => ?_
    rw [Function.comp_apply]
    cases y p <;> rfl
  rw [slope, found, Outcome.ok_bind]
  dsimp only
  rw [List.filterMap_map, List.filterMap_congr (g := fun p => (y p).map fun q => (x p, q))]
  · cases regressionSlope (items.filterMap fun p => (y p).map fun q => (x p, q)) <;> rfl
  · intro p _
    rw [Function.comp_apply]
    cases y p <;> rfl

end Dialect

end PropertyMarket
