import Mathlib.Algebra.Order.Floor.Ring
import Mathlib.Data.Rat.Floor
import Mathlib.Tactic.FieldSimp
import Mathlib.Tactic.Linarith
import Mathlib.Tactic.Ring
import PropertyMarket.Statistics

/-!
# Exact quantiles

In exact arithmetic a quantile is read off a piecewise linear curve: at each whole position stands
an order statistic, and in between the curve runs straight. The order statistics do not decrease,
so neither does the curve, and it never leaves the range of the values.

## Main definitions

* `Value.rational?` — the value of a finite number
* `interpolant` — the piecewise linear curve through a sequence
* `orderStatistic` — the value at a rank, the last one for all ranks beyond

## Main results

* `interpolant_mono` — the curve through a sequence that does not decrease does not decrease
* `quantile_eq` — the quantile at `f` is the curve at `f * (n - 1)`
* `quantile_mono`, `quantile_within` — quantiles do not decrease, and lie among the values

## Implementation notes

`orderStatistic` and `interpolant` are total. Beyond the last rank the sequence stays where it is,
which spares the curve a case of its own at its end.

The interpolation that the program computes starts from the nearer end, which in exact arithmetic
makes no difference; `interpolate_eq` says so, and after it the two halves of an interval need not
be told apart.
-/

namespace PropertyMarket

/-- The rational that a value is, if it is a finite number. Truth values count as numbers here
too. -/
def Value.rational? (v : Value) : Option ℚ := v.number?.bind Number.toRat?

/-! ### Piecewise linear curves

Between two whole positions the curve is a straight line, and it takes the values of the sequence at
the whole ones. So what holds of the sequence holds of the curve, as long as it is about order. -/

/-- The piecewise linear curve through a sequence, as a function of the rank. Between two ranks it
is the straight line. -/
def interpolant (x : ℕ → ℚ) (p : ℚ) : ℚ :=
  x ⌊p⌋₊ + (x (⌊p⌋₊ + 1) - x ⌊p⌋₊) * (p - ⌊p⌋₊)

section Interpolant

variable {x : ℕ → ℚ} {p q : ℚ}

@[simp] theorem interpolant_natCast (x : ℕ → ℚ) (n : ℕ) : interpolant x n = x n := by
  simp [interpolant]

/-- Straight after a position the curve is not below it. -/
theorem le_interpolant (hx : Monotone x) (hp : 0 ≤ p) : x ⌊p⌋₊ ≤ interpolant x p := by
  have rise : 0 ≤ x (⌊p⌋₊ + 1) - x ⌊p⌋₊ := sub_nonneg.2 (hx (Nat.le_succ _))
  have ahead : 0 ≤ p - ⌊p⌋₊ := sub_nonneg.2 (Nat.floor_le hp)
  exact le_add_of_nonneg_right (mul_nonneg rise ahead)

/-- Straight before a position the curve is not above it. -/
theorem interpolant_le (hx : Monotone x) : interpolant x p ≤ x (⌊p⌋₊ + 1) := by
  have rise : 0 ≤ x (⌊p⌋₊ + 1) - x ⌊p⌋₊ := sub_nonneg.2 (hx (Nat.le_succ _))
  have behind : p - ⌊p⌋₊ ≤ 1 := by linarith [Nat.lt_floor_add_one p]
  calc interpolant x p ≤ x ⌊p⌋₊ + (x (⌊p⌋₊ + 1) - x ⌊p⌋₊) * 1 :=
        add_le_add_right (mul_le_mul_of_nonneg_left behind rise) _
    _ = x (⌊p⌋₊ + 1) := by ring

/-- The curve through a sequence that does not decrease does not decrease, between two ranks as well
as at them. -/
theorem interpolant_mono (hx : Monotone x) (hp : 0 ≤ p) (hpq : p ≤ q) :
    interpolant x p ≤ interpolant x q := by
  obtain same | before := (Nat.floor_le_floor hpq).eq_or_lt
  · -- On one straight piece the curve goes by the distance from its start.
    have rise : 0 ≤ x (⌊q⌋₊ + 1) - x ⌊q⌋₊ := sub_nonneg.2 (hx (Nat.le_succ _))
    rw [interpolant, interpolant, same]
    exact add_le_add_right (mul_le_mul_of_nonneg_left (sub_le_sub_right hpq _) rise) _
  · calc interpolant x p ≤ x (⌊p⌋₊ + 1) := interpolant_le hx
      _ ≤ x ⌊q⌋₊ := hx before
      _ ≤ interpolant x q := le_interpolant hx (hp.trans hpq)

end Interpolant

/-- In exact arithmetic it does not matter from which end an interpolation starts; the two forms
only differ where numbers are rounded. -/
theorem interpolate_eq (a b t : ℚ) : interpolate a b t = a + (b - a) * t := by
  unfold interpolate
  split
  · show b - (b - a) * (1 - t) = a + (b - a) * t
    ring
  · rfl

/-! ### Order statistics

The values are sorted once, and the value at a rank is read off. Each order statistic is one of the
values, and they do not decrease with the rank. -/

/-- The value at a rank, counted from 0; the last one for all ranks beyond, so that the sequence is
defined and monotone everywhere. -/
def orderStatistic (values : List ℚ) (rank : ℕ) : ℚ :=
  (values.mergeSort Scalar.le).getD (min rank (values.length - 1)) 0

section OrderStatistic

variable {values : List ℚ}

theorem sorted_mergeSort (values : List ℚ) :
    (values.mergeSort Scalar.le).Pairwise (· ≤ ·) := by
  have sorted : (values.mergeSort Scalar.le).Pairwise fun a b => Scalar.le a b = true :=
    List.pairwise_mergeSort
      (fun a b c hab hbc => by
        simp only [Scalar.le, decide_eq_true_eq] at hab hbc ⊢
        exact hab.trans hbc)
      (fun a b => by simpa [Scalar.le] using le_total a b) values
  exact sorted.imp of_decide_eq_true

/-- Below the number of values, a rank has its value. -/
theorem getElem?_mergeSort {i : ℕ} (hi : i < values.length) :
    (values.mergeSort Scalar.le)[i]? = some (orderStatistic values i) := by
  have rank : min i (values.length - 1) = i := min_eq_left (by omega)
  have there : i < (values.mergeSort Scalar.le).length := by rwa [List.length_mergeSort]
  rw [orderStatistic, rank, List.getD_eq_getElem?_getD, List.getElem?_eq_getElem there,
    Option.getD_some]

/-- Ranks beyond the last one have the value of the last one. -/
theorem orderStatistic_min (values : List ℚ) (i : ℕ) :
    orderStatistic values (min i (values.length - 1)) = orderStatistic values i := by
  rw [orderStatistic, orderStatistic, min_assoc, min_self]

theorem orderStatistic_mem (h : values ≠ []) (i : ℕ) : orderStatistic values i ∈ values := by
  have hpos := List.length_pos_iff.2 h
  have inside : min i (values.length - 1) < values.length := by omega
  have found := getElem?_mergeSort inside
  rw [orderStatistic_min] at found
  exact List.mem_mergeSort.1 (List.mem_of_getElem? found)

theorem monotone_orderStatistic (values : List ℚ) : Monotone (orderStatistic values) := by
  intro i j hij
  by_cases h : values = []
  · simp [orderStatistic, h]
  · have hpos := List.length_pos_iff.2 h
    obtain same | before : min i (values.length - 1) = min j (values.length - 1) ∨
        min i (values.length - 1) < min j (values.length - 1) := by omega
    · rw [← orderStatistic_min values i, same, orderStatistic_min]
    · have hj : min j (values.length - 1) < values.length := by omega
      obtain ⟨_, hlow⟩ := List.getElem?_eq_some_iff.1 (getElem?_mergeSort (before.trans hj))
      obtain ⟨_, hhigh⟩ := List.getElem?_eq_some_iff.1 (getElem?_mergeSort hj)
      rw [← orderStatistic_min values i, ← orderStatistic_min values j, ← hlow, ← hhigh]
      exact List.pairwise_iff_getElem.1 (sorted_mergeSort values) _ _ _ _ before

end OrderStatistic

/-! ### Quantiles

A quantile is computed from the sorted values by finding its position. It is the curve through the
order statistics at that position, so its properties are those of the curve. -/

section Quantile

variable {values : List ℚ} {f g : ℚ}

theorem quantile_eq_quantileSorted (values : List ℚ) (f : ℚ) :
    quantile values f = quantileSorted (values.mergeSort Scalar.le) f := by
  have ordered : values.find? Scalar.isUnordered = none :=
    List.find?_eq_none.2 fun x _ => by simp [Scalar.isUnordered]
  rw [quantile, ordered]

/-- There is no quantile of no values. -/
theorem quantile_nil (f : ℚ) : quantile [] f = none := by
  rw [quantile_eq_quantileSorted, List.mergeSort_nil, quantileSorted]
  split <;> rfl

/-- **The quantile at `f` is the curve through the order statistics at `f * (n - 1)`.** -/
theorem quantile_eq (h : values ≠ []) (nonneg : 0 ≤ f) (le_one : f ≤ 1) :
    quantile values f =
      some (interpolant (orderStatistic values) (((values.length - 1 : ℕ) : ℚ) * f)) := by
  have hpos := List.length_pos_iff.2 h
  obtain ⟨last, hlast⟩ : ∃ last, values.length = last + 1 := ⟨values.length - 1, by omega⟩
  have greatest : Scalar.ofInt (((values.mergeSort Scalar.le).length : Int) - 1) = (last : ℚ) := by
    rw [List.length_mergeSort, hlast]
    show (((last + 1 : ℕ) - 1 : ℤ) : ℚ) = (last : ℚ)
    push_cast
    ring
  have before_end : (last : ℚ) * f ≤ last := mul_le_of_le_one_right (Nat.cast_nonneg _) le_one
  rw [quantile_eq_quantileSorted, quantileSorted, hlast, Nat.add_sub_cancel]
  simp only [greatest]
  split
  · rename_i at_end
    have last_eq : (last : ℚ) * f = last := le_antisymm before_end (of_decide_eq_true at_end)
    have final : (values.mergeSort Scalar.le).getLast? = some (orderStatistic values last) := by
      rw [List.getLast?_eq_getElem?, List.length_mergeSort, hlast, Nat.add_sub_cancel,
        getElem?_mergeSort (by omega)]
    rw [final, Option.map_some, interpolate_eq, last_eq, interpolant_natCast, sub_self, zero_mul,
      add_zero]
  · rename_i inside
    have inside : (last : ℚ) * f < last := by simpa [Scalar.le] using inside
    have below : (Scalar.floor ((last : ℚ) * f)).toNat = ⌊(last : ℚ) * f⌋₊ := by
      show ⌊(last : ℚ) * f⌋.toNat = ⌊(last : ℚ) * f⌋₊
      exact Int.floor_toNat _
    have hbelow : ⌊(last : ℚ) * f⌋₊ < last :=
      (Nat.floor_lt (mul_nonneg (Nat.cast_nonneg _) nonneg)).2 inside
    rw [below, getElem?_mergeSort (by omega), getElem?_mergeSort (by omega)]
    dsimp only
    rw [interpolate_eq, interpolant]
    rfl

/-- Quantiles do not decrease with the fraction. This is why the breaks of a legend come in
order. -/
theorem quantile_mono (h : values ≠ []) (nonneg : 0 ≤ f) (hfg : f ≤ g) (le_one : g ≤ 1) :
    ∃ a b, quantile values f = some a ∧ quantile values g = some b ∧ a ≤ b := by
  refine ⟨_, _, quantile_eq h nonneg (hfg.trans le_one), quantile_eq h (nonneg.trans hfg) le_one,
    interpolant_mono (monotone_orderStatistic values) ?_ ?_⟩
  · exact mul_nonneg (Nat.cast_nonneg _) nonneg
  · exact mul_le_mul_of_nonneg_left hfg (Nat.cast_nonneg _)

/-- Quantiles lie among the values: one value is not above, and another one is not below. -/
theorem quantile_within (h : values ≠ []) (nonneg : 0 ≤ f) (le_one : f ≤ 1) :
    ∃ a, quantile values f = some a ∧ (∃ lo ∈ values, lo ≤ a) ∧ ∃ hi ∈ values, a ≤ hi := by
  have sorted := monotone_orderStatistic values
  have positive : 0 ≤ ((values.length - 1 : ℕ) : ℚ) * f := mul_nonneg (Nat.cast_nonneg _) nonneg
  exact ⟨_, quantile_eq h nonneg le_one,
    ⟨_, orderStatistic_mem h _, le_interpolant sorted positive⟩,
    ⟨_, orderStatistic_mem h _, interpolant_le sorted⟩⟩

end Quantile

end PropertyMarket
