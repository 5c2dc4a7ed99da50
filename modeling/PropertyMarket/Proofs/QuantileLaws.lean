import Mathlib.Data.List.ReduceOption
import Mathlib.Order.Bounds.Basic
import PropertyMarket.Proofs.QuantileCounts
import PropertyMarket.Proofs.StoredScope

/-!
# Laws of percentiles

Where the curve of the quantiles stands is known from the order statistics, and those are known from
how many values are not above a bound. So a percentile depends on the values as a multiset, it grows
with the values, and a map of the values that keeps their order, or turns it around, maps the order
statistics and with them the curve. Nulls are left out before any of this.

## Main definitions

* `Value.IsFraction` — a value that is taken as a fraction
* `IsPercentile` — what the percentile at a fraction of values and nulls is

## Main results

* `orderStatistic_le_iff` — the value at a rank, by counts of values
* `orderStatistic_le_of_forall₂`, `orderStatistic_map_of_monotone`,
  `orderStatistic_map_of_antitone` — how the order statistics follow the values
* `interpolant_le_interpolant`, `interpolant_affine`, `interpolant_reverse` — how a curve follows
  its points
* `percentile_eq_quantile` — the percentile of values and nulls is the quantile of the values
* `quantile_isPercentile` — the laws of percentiles

## Implementation notes

Three facts carry all laws: a quantile is a point on the curve through the order statistics, the
order statistics are determined by counts of values, and a curve follows its points. So each law is
proved of order statistics first, then of curves, and the result for quantiles is the two put
together.

A falling map turns the order around, so that the rank is counted from the other end and the curve
is seen from there. That is why the law for it has the fraction `1 - f` on one side.
-/

namespace PropertyMarket

/-! ### Order statistics

The value at a rank is characterized by how many values are not above a bound. Permuting, raising or
mapping the values changes these counts in an obvious way. -/

section OrderStatistic

variable {xs ys : List ℚ}

/-- Values in order are in the only order that they have. -/
theorem mergeSort_eq_of_sorted (perm : ys.Perm xs) (sorted : ys.Pairwise (· ≤ ·)) :
    xs.mergeSort Scalar.le = ys := by
  refine List.Perm.eq_of_pairwise ?_ (sorted_mergeSort xs) sorted
    ((List.mergeSort_perm xs Scalar.le).trans perm.symm)
  intro a b _ _ hab hba
  exact le_antisymm hab hba

theorem mergeSort_eq_of_perm (perm : ys.Perm xs) :
    ys.mergeSort Scalar.le = xs.mergeSort Scalar.le :=
  mergeSort_eq_of_sorted ((List.mergeSort_perm xs Scalar.le).trans perm.symm) (sorted_mergeSort xs)

/-- The value at a rank is not above a bound exactly if more values than the rank are not. This
determines it, and does not mention sorting. -/
theorem orderStatistic_le_iff {k : ℕ} (hk : k < xs.length) {t : ℚ} :
    orderStatistic xs k ≤ t ↔ k < xs.countP fun v => decide (v ≤ t) := by
  have mono := monotone_orderStatistic xs
  rw [← (List.mergeSort_perm xs Scalar.le).countP_eq, mergeSort_eq_map, List.countP_map]
  constructor
  · intro below
    have first : k + 1 ≤ (List.range xs.length).countP fun i => decide (i < k + 1) := by
      rw [countP_range_lt, min_eq_right hk]
    refine first.trans (List.countP_mono_left fun i _ hi => ?_)
    have before : i ≤ k := Nat.lt_succ_iff.1 (of_decide_eq_true hi)
    exact decide_eq_true ((mono before).trans below)
  · intro many
    by_contra above
    have few : (List.range xs.length).countP ((fun v => decide (v ≤ t)) ∘ orderStatistic xs) ≤
        (List.range xs.length).countP fun i => decide (i < k) := by
      refine List.countP_mono_left fun i _ hi => decide_eq_true ?_
      by_contra behind
      exact above ((mono (not_lt.1 behind)).trans (of_decide_eq_true hi))
    rw [countP_range_lt] at few
    omega

/-- Values that do not decrease have order statistics that do not, although sorting may bring them
into another order. -/
theorem orderStatistic_le_of_forall₂ (h : List.Forall₂ (· ≤ ·) xs ys) (k : ℕ) :
    orderStatistic xs k ≤ orderStatistic ys k := by
  obtain rfl | nonempty := eq_or_ne xs []
  · rw [List.forall₂_nil_left_iff.1 h]
  have length := h.length_eq
  have inside : min k (ys.length - 1) < ys.length := by
    have := List.length_pos_iff.2 nonempty
    omega
  have counts (t : ℚ) :
      (ys.countP fun v => decide (v ≤ t)) ≤ xs.countP fun v => decide (v ≤ t) := by
    clear inside length nonempty
    induction h with
    | nil => exact le_rfl
    | @cons x y xs ys hxy _ ih =>
      simp only [List.countP_cons, decide_eq_true_eq]
      by_cases low : y ≤ t
      · rw [if_pos low, if_pos (hxy.trans low)]
        omega
      · rw [if_neg low]
        omega
  rw [← orderStatistic_min xs, ← orderStatistic_min ys, length,
    orderStatistic_le_iff (length ▸ inside)]
  exact ((orderStatistic_le_iff inside).1 le_rfl).trans_le (counts _)

theorem orderStatistic_map_of_monotone {g : ℚ → ℚ} (mono : Monotone g) (h : xs ≠ []) (k : ℕ) :
    orderStatistic (xs.map g) k = g (orderStatistic xs k) := by
  have sorted : (xs.map g).mergeSort Scalar.le = (xs.mergeSort Scalar.le).map g :=
    mergeSort_eq_of_sorted ((List.mergeSort_perm xs Scalar.le).map g)
      ((sorted_mergeSort xs).map g fun _ _ hab => mono hab)
  have inside : min k (xs.length - 1) < xs.length := by
    have := List.length_pos_iff.2 h
    omega
  have found := getElem?_mergeSort
    (by rwa [List.length_map] : min k (xs.length - 1) < (xs.map g).length)
  rw [sorted, List.getElem?_map, getElem?_mergeSort inside, Option.map_some] at found
  rw [← orderStatistic_min xs, ← orderStatistic_min (xs.map g), List.length_map]
  exact (Option.some.inj found).symm

/-- A map that turns the order around counts the ranks from the other end, which is how a negative
scale turns the fraction around. -/
theorem orderStatistic_map_of_antitone {g : ℚ → ℚ} (anti : Antitone g) {k : ℕ}
    (hk : k < xs.length) :
    orderStatistic (xs.map g) (xs.length - 1 - k) = g (orderStatistic xs k) := by
  have sorted : (xs.map g).mergeSort Scalar.le = ((xs.mergeSort Scalar.le).map g).reverse :=
    mergeSort_eq_of_sorted
      ((List.reverse_perm _).trans ((List.mergeSort_perm xs Scalar.le).map g))
      (List.pairwise_reverse.2 ((sorted_mergeSort xs).map g fun _ _ hab => anti hab))
  have found := getElem?_mergeSort
    (by rw [List.length_map]; omega : xs.length - 1 - k < (xs.map g).length)
  have mirrored : xs.length - 1 - (xs.length - 1 - k) = k := by omega
  rw [sorted, List.getElem?_reverse (by simp; omega), List.length_map, List.length_mergeSort,
    mirrored, List.getElem?_map, getElem?_mergeSort hk, Option.map_some] at found
  exact (Option.some.inj found).symm

end OrderStatistic

/-! ### Curves

How the curve through a sequence changes if its points are raised, mapped by a straight line, or
taken in reverse. None of this depends on where the points come from. -/

section Interpolant

variable {x y : ℕ → ℚ} {p : ℚ}

/-- On each of its pieces, both ends included, the curve is straight. -/
theorem interpolant_of_within (x : ℕ → ℚ) {k : ℕ} (hk : (k : ℚ) ≤ p) (hp : p ≤ k + 1) :
    interpolant x p = x k + (x (k + 1) - x k) * (p - k) := by
  obtain before | rfl := hp.lt_or_eq
  · have floor : ⌊p⌋₊ = k := (Nat.floor_eq_iff ((Nat.cast_nonneg k).trans hk)).2 ⟨hk, before⟩
    rw [interpolant, floor]
  · have last : (k : ℚ) + 1 = (k + 1 : ℕ) := by push_cast; rfl
    rw [last, interpolant_natCast]
    push_cast
    ring

/-- A curve through higher points is higher, at every position and not only at the points. -/
theorem interpolant_le_interpolant (h : ∀ k, x k ≤ y k) (hp : 0 ≤ p) :
    interpolant x p ≤ interpolant y p := by
  have ahead : 0 ≤ p - ⌊p⌋₊ := sub_nonneg.2 (Nat.floor_le hp)
  have behind : 0 ≤ 1 - (p - ⌊p⌋₊) := by linarith [Nat.lt_floor_add_one p]
  have mixed (z : ℕ → ℚ) : interpolant z p =
      (1 - (p - ⌊p⌋₊)) * z ⌊p⌋₊ + (p - ⌊p⌋₊) * z (⌊p⌋₊ + 1) := by
    rw [interpolant]
    ring
  rw [mixed, mixed]
  exact add_le_add (mul_le_mul_of_nonneg_left (h _) behind) (mul_le_mul_of_nonneg_left (h _) ahead)

theorem interpolant_affine (a b : ℚ) (x : ℕ → ℚ) (p : ℚ) :
    interpolant (fun k => a * x k + b) p = a * interpolant x p + b := by
  simp only [interpolant]
  ring

/-- The curve through points in reverse order is the curve, seen from its other end: a position
becomes its distance from the last rank. -/
theorem interpolant_reverse {m : ℕ} (reversed : ∀ k ≤ m, y (m - k) = x k) (nonneg : 0 ≤ p)
    (within : p ≤ m) : interpolant y (m - p) = interpolant x p := by
  have floor_le := Nat.floor_le nonneg
  have lt_floor := Nat.lt_floor_add_one p
  obtain before | last := (Nat.floor_le_of_le within).lt_or_eq
  · have cast : ((m - (⌊p⌋₊ + 1) : ℕ) : ℚ) = m - (⌊p⌋₊ + 1) := by
      rw [Nat.cast_sub before]
      push_cast
      ring
    have start : y (m - (⌊p⌋₊ + 1)) = x (⌊p⌋₊ + 1) := reversed _ before
    have stop : y (m - (⌊p⌋₊ + 1) + 1) = x ⌊p⌋₊ := by
      rw [← reversed _ before.le]
      congr 1
      omega
    rw [interpolant_of_within y (k := m - (⌊p⌋₊ + 1)) (by rw [cast]; linarith)
      (by rw [cast]; linarith), interpolant, start, stop, cast]
    ring
  · have end_eq : p = (m : ℕ) := le_antisymm within (last ▸ floor_le)
    have start := interpolant_natCast y 0
    rw [Nat.cast_zero] at start
    rw [end_eq, sub_self, start, interpolant_natCast, ← reversed m le_rfl, Nat.sub_self]

end Interpolant

/-! ### Quantiles

The laws for quantiles of lists of values, each with the fractions for which it holds. At both ends
a quantile is an extreme of the values. -/

section Quantile

variable {xs ys : List ℚ} {f : ℚ}

/-- The order of the values does not matter. -/
theorem quantile_eq_of_perm (perm : ys.Perm xs) (f : ℚ) : quantile ys f = quantile xs f := by
  rw [quantile_eq_quantileSorted, quantile_eq_quantileSorted, mergeSort_eq_of_perm perm]

/-- Values that do not decrease have quantiles that do not. -/
theorem quantile_le_of_forall₂ (h : List.Forall₂ (· ≤ ·) xs ys) (nonempty : xs ≠ [])
    (nonneg : 0 ≤ f) (le_one : f ≤ 1) :
    ∃ a b, quantile xs f = some a ∧ quantile ys f = some b ∧ a ≤ b := by
  have nonempty' : ys ≠ [] := by
    rintro rfl
    exact nonempty (List.forall₂_nil_right_iff.1 h)
  refine ⟨_, _, quantile_eq nonempty nonneg le_one, quantile_eq nonempty' nonneg le_one, ?_⟩
  rw [h.length_eq]
  exact interpolant_le_interpolant (orderStatistic_le_of_forall₂ h)
    (mul_nonneg (Nat.cast_nonneg _) nonneg)

/-- Another scale and another origin of the values are those of the quantile. -/
theorem quantile_affine (nonempty : xs ≠ []) (nonneg : 0 ≤ f) (le_one : f ≤ 1) {a : ℚ}
    (rising : 0 ≤ a) (b : ℚ) :
    quantile (xs.map fun v => a * v + b) f = (quantile xs f).map fun q => a * q + b := by
  have mono : Monotone fun v : ℚ => a * v + b := fun v w hvw =>
    add_le_add_left (mul_le_mul_of_nonneg_left hvw rising) b
  have ranks : orderStatistic (xs.map fun v => a * v + b) =
      fun k => a * orderStatistic xs k + b :=
    funext fun k => orderStatistic_map_of_monotone mono nonempty k
  rw [quantile_eq (by simpa using nonempty) nonneg le_one, quantile_eq nonempty nonneg le_one,
    List.length_map, ranks, interpolant_affine, Option.map_some]

/-- On a scale that is turned around, the fraction counts from the other end. -/
theorem quantile_affine_of_neg (nonempty : xs ≠ []) (nonneg : 0 ≤ f) (le_one : f ≤ 1) {a : ℚ}
    (falling : a < 0) (b : ℚ) :
    quantile (xs.map fun v => a * v + b) (1 - f) = (quantile xs f).map fun q => a * q + b := by
  have anti : Antitone fun v : ℚ => a * v + b := fun v w hvw =>
    add_le_add_left (mul_le_mul_of_nonpos_left hvw falling.le) b
  have positive := List.length_pos_iff.2 nonempty
  have within : ((xs.length - 1 : ℕ) : ℚ) * f ≤ (xs.length - 1 : ℕ) :=
    mul_le_of_le_one_right (Nat.cast_nonneg _) le_one
  rw [quantile_eq (by simpa using nonempty) (sub_nonneg.2 le_one) (sub_le_self 1 nonneg),
    quantile_eq nonempty nonneg le_one, List.length_map, mul_sub, mul_one, Option.map_some,
    ← interpolant_affine, interpolant_reverse (x := fun k => a * orderStatistic xs k + b) ?_
      (mul_nonneg (Nat.cast_nonneg _) nonneg) within]
  intro k hk
  exact orderStatistic_map_of_antitone anti (by omega)

theorem quantile_zero (nonempty : xs ≠ []) : quantile xs 0 = some (orderStatistic xs 0) := by
  have start := interpolant_natCast (orderStatistic xs) 0
  rw [Nat.cast_zero] at start
  rw [quantile_eq nonempty le_rfl zero_le_one, mul_zero, start]

theorem quantile_one (nonempty : xs ≠ []) :
    quantile xs 1 = some (orderStatistic xs (xs.length - 1)) := by
  rw [quantile_eq nonempty zero_le_one le_rfl, mul_one, interpolant_natCast]

/-- The least value, or the greatest, is the quantile at the end. -/
theorem extreme_eq_quantile (greatest : Bool) (xs : List ℚ) :
    extreme greatest xs = quantile xs (if greatest then 1 else 0) := by
  have ordered : xs.find? Scalar.isUnordered = none :=
    List.find?_eq_none.2 fun x _ => by simp [Scalar.isUnordered]
  rw [extreme, ordered]
  dsimp only
  obtain rfl | nonempty := eq_or_ne xs []
  · rw [quantile_nil, List.mergeSort_nil, List.getLast?_nil, List.head?_nil, ite_self]
  · have positive := List.length_pos_iff.2 nonempty
    cases greatest with
    | true =>
      rw [if_pos rfl, if_pos rfl, quantile_one nonempty, List.getLast?_eq_getElem?,
        List.length_mergeSort, getElem?_mergeSort (by omega)]
    | false =>
      rw [if_neg Bool.false_ne_true, if_neg Bool.false_ne_true, quantile_zero nonempty,
        List.head?_eq_getElem?, getElem?_mergeSort positive]

end Quantile

/-! ### Percentiles of values

What is computed of values at hand, in which there may be nulls, is the quantile of the numbers
among them at the fraction that is given. -/

/-- A value that is a fraction of one: a number of any kind but decimals, which are not joined with
binary64 numbers. -/
structure Value.IsFraction (v : Value) (f : ℚ) : Prop where
  rational?_eq : v.rational? = some f
  nonneg : 0 ≤ f
  le_one : f ≤ 1
  ne_decimal : ∀ d, v ≠ .decimal d

theorem Number.eq_of_toRat?_int {n : ℤ} {q : ℚ} (h : (Number.int n).toRat? = some q) : q = n :=
  Option.some.inj (h.symm.trans (Value.rational?_int n))

/-- A fraction is taken as the number that it is. -/
theorem Value.IsFraction.exists_number {v : Value} {f : ℚ} (h : v.IsFraction f) :
    ∃ x, v.number? = some x ∧ x.toRat? = some f ∧ v.requireFraction = .ok x := by
  obtain ⟨x, hx, hxf⟩ := Option.bind_eq_some_iff.1 h.rational?_eq
  refine ⟨x, hx, hxf, ?_⟩
  have number : v.requireNumber = .ok x := by rw [Value.requireNumber, hx]; rfl
  have known : x.toRat?.isSome := by rw [hxf]; rfl
  have value : x.value = f := by rw [Number.value, hxf, Option.getD_some]
  have zero : (Number.int 0).value = 0 := rfl
  have one : (Number.int 1).value = 1 := by decide +kernel
  have within : x.isFraction = true := by
    rw [Number.isFraction, Number.le_eq rfl known, Number.le_eq known rfl, zero, one, value,
      decide_eq_true h.nonneg, decide_eq_true h.le_one, Bool.and_self]
  rw [Value.requireFraction, number, Outcome.ok_bind, if_pos within]
  rfl

/-- The numbers of a block of values and nulls without the nulls. -/
theorem mapM_toCell_eq {given : List Value} (valued : ∀ v ∈ given, v.Valued) :
    (given.filter fun v => !v.isNull).mapM (Value.toCell (α := ℚ)) =
      .ok (given.filterMap Value.rational?) := by
  induction given with
  | nil => rfl
  | cons v given ih =>
    obtain ⟨first, rest⟩ := List.forall_mem_cons.1 valued
    rw [List.filter_cons, first.isNull_eq, Option.not_isNone, List.filterMap_cons]
    cases hv : v.rational? with
    | none => exact ih rest
    | some q =>
      rw [Option.isSome_some, if_pos rfl, List.mapM_cons, Value.toCell_eq hv, ih rest]
      rfl

/-- **The percentile of values and nulls is the quantile of the values.** The fraction may be given
in any way that stands for it. -/
theorem percentile_eq_quantile {given : List Value} {fraction : Value} {f : ℚ}
    (valued : ∀ v ∈ given, v.Valued) (h : fraction.IsFraction f) :
    percentile ℚ given fraction = .ok (quantile (given.filterMap Value.rational?) f) := by
  obtain ⟨x, hx, hxf, required⟩ := h.exists_number
  have flat : (given.filter fun v => !v.isNull).any Grid.isList = false := by
    rw [List.any_eq_false]
    intro v hv
    simp [(valued v (List.mem_of_mem_filter hv)).isList_eq]
  rw [percentile, required, Outcome.ok_bind, Grid.ofItems_eq flat, Outcome.ok_bind, Grid.numbers,
    mapM_toCell_eq valued, Outcome.ok_bind]
  generalize given.filterMap Value.rational? = values
  obtain rfl | nonempty := eq_or_ne values []
  · rw [quantile_nil]
    rfl
  · rw [if_neg (by simpa using nonempty)]
    cases x with
    | decimal d =>
      refine absurd ?_ (h.ne_decimal d)
      cases fraction <;> simp_all [Value.number?]
    | double x =>
      have converted : (Scalar.ofNumber (.double x) : Except Number.Failure ℚ) = .ok f := by
        simp [Scalar.ofNumber, hxf]
      rw [percentileAt, converted]
      rfl
    | int n =>
      have same := Number.eq_of_toRat?_int hxf
      have zero_le : 0 ≤ n := by exact_mod_cast same ▸ h.nonneg
      have le_one : n ≤ 1 := by exact_mod_cast same ▸ h.le_one
      obtain rfl | rfl : n = 0 ∨ n = 1 := by omega
      all_goals
        rw [percentileAt, extreme_eq_quantile, same]
        simp
    | flag b =>
      have same := Number.eq_of_toRat?_int (n := Number.ofFlag b) hxf
      rw [percentileAt, extreme_eq_quantile, same]
      cases b <;> simp [Number.ofFlag]

/-! ### The laws together

Values of which some may be null, as lists of optional rationals, with all laws in one structure.
Each law is stated of these values and not of the values at hand, which only occur in the first
field. -/

/-- The number `x` is the percentile at a fraction `f` of values, of which some may be null. In
exact arithmetic that is the quantile of the values that are not. -/
structure IsPercentile (values : List (Option ℚ)) (f x : ℚ) : Prop where
  /-- It is what is computed of values at hand that stand for these, at any number that is the
  fraction. -/
  computed : ∀ (given : List Value) (fraction : Value), (∀ v ∈ given, v.Valued) →
    given.map Value.rational? = values → fraction.IsFraction f →
      percentile ℚ given fraction = .ok (some x)
  /-- It is on the straight line between the order statistics next to the position. -/
  interpolates : x =
    interpolant (orderStatistic values.reduceOption) (f * (values.reduceOption.length - 1))
  /-- Neither the order of the values matters, nor how many nulls there are, nor where. -/
  perm : ∀ values' : List (Option ℚ), values'.reduceOption.Perm values.reduceOption →
    quantile values'.reduceOption f = some x
  /-- At a greater fraction the percentile is not less. -/
  mono_fraction : ∀ g, f ≤ g → g ≤ 1 →
    ∃ y, quantile values.reduceOption g = some y ∧ x ≤ y
  /-- With greater values the percentile is not less. -/
  mono_values : ∀ values' : List (Option ℚ), List.Forall₂ (Option.Rel (· ≤ ·)) values values' →
    ∃ y, quantile values'.reduceOption f = some y ∧ x ≤ y
  /-- At the fraction 0 it is the least of the values. -/
  isLeast : f = 0 → IsLeast {q | some q ∈ values} x
  /-- At the fraction 1 it is the greatest of the values. -/
  isGreatest : f = 1 → IsGreatest {q | some q ∈ values} x
  /-- It has the scale and the origin of the values. -/
  affine : ∀ a b, 0 ≤ a →
    quantile (values.map (Option.map fun v => a * v + b)).reduceOption f = some (a * x + b)
  /-- If the scale is turned around, so is the fraction. -/
  affine_of_neg : ∀ a b, a < 0 →
    quantile (values.map (Option.map fun v => a * v + b)).reduceOption (1 - f) = some (a * x + b)

theorem forall₂_reduceOption {values values' : List (Option ℚ)}
    (h : List.Forall₂ (Option.Rel (· ≤ ·)) values values') :
    List.Forall₂ (· ≤ ·) values.reduceOption values'.reduceOption := by
  induction h with
  | nil => exact .nil
  | cons first _ ih =>
    cases first with
    | none => simpa using ih
    | some hvw => simpa using ⟨hvw, ih⟩

/-- **The laws of percentiles.** Of values of which at least one is not null there is a percentile
at each fraction from zero to one. It is computed of rows at hand in exact arithmetic, lies between
the order statistics next to its position, does not depend on the order of the values or on the
nulls among them, grows with the fraction and with the values, and follows a change of scale. -/
theorem quantile_isPercentile {values : List (Option ℚ)} (known : ∃ q, some q ∈ values) {f : ℚ}
    (nonneg : 0 ≤ f) (le_one : f ≤ 1) :
    ∃ x, quantile values.reduceOption f = some x ∧ IsPercentile values f x := by
  have nonempty : values.reduceOption ≠ [] := by
    obtain ⟨q, hq⟩ := known
    exact List.ne_nil_of_mem (List.reduceOption_mem_iff.2 hq)
  have members : {q | some q ∈ values} = {q | q ∈ values.reduceOption} := by
    ext q
    exact List.reduceOption_mem_iff.symm
  obtain ⟨x, hx⟩ : ∃ x, quantile values.reduceOption f = some x :=
    ⟨_, quantile_eq nonempty nonneg le_one⟩
  have curve : x = interpolant (orderStatistic values.reduceOption)
      (f * (values.reduceOption.length - 1)) := by
    rw [quantile_eq nonempty nonneg le_one, Nat.cast_pred (List.length_pos_iff.2 nonempty),
      mul_comm] at hx
    exact (Option.some.inj hx).symm
  refine ⟨x, hx, ?_⟩
  constructor
  case computed =>
    rintro given fraction valued rfl fits
    rw [percentile_eq_quantile valued fits, ← hx, List.reduceOption, List.filterMap_map]
    rfl
  case interpolates => exact curve
  case perm =>
    intro values' perm
    rw [quantile_eq_of_perm perm, hx]
  case mono_fraction =>
    intro g hfg hg
    obtain ⟨a, b, ha, hb, hab⟩ := quantile_mono nonempty nonneg hfg hg
    obtain rfl := Option.some.inj (hx.symm.trans ha)
    exact ⟨b, hb, hab⟩
  case mono_values =>
    intro values' above
    obtain ⟨a, b, ha, hb, hab⟩ :=
      quantile_le_of_forall₂ (forall₂_reduceOption above) nonempty nonneg le_one
    obtain rfl := Option.some.inj (hx.symm.trans ha)
    exact ⟨b, hb, hab⟩
  case isLeast =>
    rintro rfl
    obtain rfl := Option.some.inj (hx.symm.trans (quantile_zero nonempty))
    rw [members]
    exact ⟨orderStatistic_mem nonempty 0, fun q hq => (orderStatistic_within hq).1⟩
  case isGreatest =>
    rintro rfl
    obtain rfl := Option.some.inj (hx.symm.trans (quantile_one nonempty))
    rw [members]
    exact ⟨orderStatistic_mem nonempty _, fun q hq => (orderStatistic_within hq).2⟩
  case affine =>
    intro a b rising
    rw [List.reduceOption_map, quantile_affine nonempty nonneg le_one rising, hx, Option.map_some]
  case affine_of_neg =>
    intro a b falling
    rw [List.reduceOption_map, quantile_affine_of_neg nonempty nonneg le_one falling, hx,
      Option.map_some]

/-- A quarter of the way through three prices and a null, and through the same prices on a scale
that is turned around. -/
theorem quantile_isPercentile_quarter :
    percentile ℚ [.int 20, .null, .double 10, .int 40] (.double (Number.divInt 1 4)) =
      .ok (some 15) ∧
    quantile [-39, -19, -79] (3 / 4) = some (-29 : ℚ) := by
  have known : ∃ q : ℚ, some q ∈ [some 20, none, some 10, some 40] := ⟨20, by simp⟩
  obtain ⟨x, hx, laws⟩ := quantile_isPercentile known (f := 1 / 4) (by norm_num) (by norm_num)
  have fifteen : quantile [20, 10, 40] (1 / 4) = some (15 : ℚ) := by
    rw [quantile_eq_quantileSorted, mergeSort_eq_of_sorted (List.Perm.swap 20 10 [40])
      (by decide)]
    decide +kernel
  obtain rfl : x = 15 := Option.some.inj (hx.symm.trans fifteen)
  have number : (Value.double (Number.divInt 1 4)).rational? = some (1 / 4) := by decide +kernel
  have ten : (Value.double 10).rational? = some 10 := by decide +kernel
  constructor
  · refine laws.computed _ _ ?_ ?_ ⟨number, by norm_num, by norm_num, by simp⟩
    · simp [Value.Valued, ten, Value.rational?_int]
    · decide +kernel
  · have turned := laws.affine_of_neg (-2) 1 (by norm_num)
    norm_num at turned
    exact turned

end PropertyMarket
