import Mathlib.Data.List.Nodup
import PropertyMarket.Proofs.MemoryLegend

/-!
# How many values are in a bucket

Between different values the curve of the quantiles rises all the way, so as many values are below
it at a position as there are ranks before the position. The breaks of a legend are on the curve at
evenly spread positions. So the number of values in a bucket is known from the number of values
and of buckets alone; with ties it is not.

## Main definitions

* `Cut.position`, `Cut.boundary` — where a cut is among the ranks, and the quantile there
* `Cut.bucket` — the bucket between a cut and the next one

## Main results

* `orderStatistic_lt_iff` — the curve is above the values at the ranks before a position
* `Cut.countP_lt_boundary` — so many values are below a cut
* `Cut.countP_bucket`, `Cut.counts_balanced` — how many there are in a bucket, and how different
  two buckets are in that
* `Legend.ranges_of_draftOf` — the buckets of a legend are those between evenly spread cuts
* `Legend.compute_distinct` — how many values are in each bucket of a legend of different values

## Implementation notes

The number of different values below the curve at a position is the number of ranks before the
position, rounded up: at a whole position the value at that rank is on the curve and not below it. A
bucket holds what is below its upper boundary and not below its lower one, so its count is a
difference of two such numbers; only the last one holds its upper boundary as well, which adds one.

The bound on the difference between two buckets follows from these numbers alone: the positions are
evenly spread, and rounding up changes each of them by less than one.
-/

namespace PropertyMarket

/-! ### Different values in order

If no two values are equal, the order statistics increase strictly. Then the curve between two ranks
is strictly between their values, and no value is on it except at whole positions. -/

section Distinct

variable {values : List ℚ}

/-- The values in order are those at the ranks. -/
theorem mergeSort_eq_map (values : List ℚ) :
    values.mergeSort Scalar.le = (List.range values.length).map (orderStatistic values) := by
  refine List.ext_getElem? fun i => ?_
  by_cases inside : i < values.length
  · rw [getElem?_mergeSort inside, List.getElem?_map, List.getElem?_range inside, Option.map_some]
  · have length : values.length ≤ i := not_lt.1 inside
    rw [List.getElem?_eq_none (by simpa using length),
      List.getElem?_eq_none (by simpa using length)]

/-- Values lie between the first one and the last one in order. -/
theorem orderStatistic_within {v : ℚ} (hv : v ∈ values) :
    orderStatistic values 0 ≤ v ∧ v ≤ orderStatistic values (values.length - 1) := by
  have sorted := (List.mergeSort_perm values Scalar.le).mem_iff.2 hv
  rw [mergeSort_eq_map] at sorted
  obtain ⟨k, hk, rfl⟩ := List.mem_map.1 sorted
  have inside := List.mem_range.1 hk
  exact ⟨monotone_orderStatistic values (Nat.zero_le k),
    monotone_orderStatistic values (by omega)⟩

/-- Of different values a later one in order is greater. -/
theorem orderStatistic_lt (distinct : values.Nodup) {i j : ℕ} (hij : i < j)
    (hj : j < values.length) : orderStatistic values i < orderStatistic values j := by
  refine (monotone_orderStatistic values hij.le).lt_of_ne fun same => hij.ne ?_
  have nodup : ((List.range values.length).map (orderStatistic values)).Nodup := by
    rw [← mergeSort_eq_map]
    exact (List.mergeSort_perm values Scalar.le).nodup_iff.2 distinct
  exact List.inj_on_of_nodup_map nodup (List.mem_range.2 (hij.trans hj)) (List.mem_range.2 hj) same

/-- The curve through different values is above those at the ranks before a position, and above no
others. -/
theorem orderStatistic_lt_iff (distinct : values.Nodup) {k : ℕ} {p : ℚ} (nonneg : 0 ≤ p)
    (within : p ≤ (values.length - 1 : ℕ)) :
    orderStatistic values k < interpolant (orderStatistic values) p ↔ (k : ℚ) < p := by
  have mono := monotone_orderStatistic values
  constructor
  · intro below
    by_contra behind
    have least := interpolant_mono mono nonneg (not_lt.1 behind)
    rw [interpolant_natCast] at least
    exact absurd below (not_lt.2 least)
  · intro before
    obtain same | earlier := (Nat.le_floor before.le).eq_or_lt
    · -- The position lies on the piece that begins at the rank, and behind its beginning.
      have room : k + 1 ≤ values.length - 1 := by
        have : (k : ℚ) < (values.length - 1 : ℕ) := before.trans_le within
        exact_mod_cast this
      have rise : 0 < orderStatistic values (k + 1) - orderStatistic values k :=
        sub_pos.2 (orderStatistic_lt distinct (Nat.lt_succ_self k) (by omega))
      rw [interpolant, ← same]
      exact lt_add_of_pos_right _ (mul_pos rise (sub_pos.2 before))
    · have inside : ⌊p⌋₊ < values.length := by
        have floor : ⌊p⌋₊ ≤ values.length - 1 := by
          exact_mod_cast (Nat.floor_le nonneg).trans within
        omega
      exact (orderStatistic_lt distinct earlier inside).trans_le (le_interpolant mono nonneg)

theorem countP_range_lt (n m : ℕ) :
    (List.range n).countP (fun k => decide (k < m)) = min n m := by
  induction n with
  | zero => simp
  | succ n ih =>
    rw [List.range_succ, List.countP_append, ih, List.countP_singleton]
    simp only [decide_eq_true_eq]
    split <;> omega

/-- As many of different values are below the curve as there are ranks before the position, so the
position rounded up. -/
theorem countP_lt_interpolant (distinct : values.Nodup) {p : ℚ} (nonneg : 0 ≤ p)
    (within : p ≤ (values.length - 1 : ℕ)) :
    values.countP (fun v => decide (v < interpolant (orderStatistic values) p)) = ⌈p⌉₊ := by
  rw [← (List.mergeSort_perm values Scalar.le).countP_eq, mergeSort_eq_map, List.countP_map]
  have ranks : (List.range values.length).countP ((fun v => decide (v < interpolant
      (orderStatistic values) p)) ∘ orderStatistic values) =
        (List.range values.length).countP fun k => decide (k < ⌈p⌉₊) := by
    refine List.countP_congr fun k _ => ?_
    simp only [Function.comp_apply, decide_eq_true_eq, orderStatistic_lt_iff distinct nonneg within,
      Nat.lt_ceil]
  have few : ⌈p⌉₊ ≤ values.length := (Nat.ceil_le.2 within).trans (Nat.sub_le _ _)
  rw [ranks, countP_range_lt, min_eq_right few]

end Distinct

/-! ### Counting in a bucket

A bucket that is open above holds the values below its upper boundary, less those below its lower
one. The last bucket holds all values that are left. -/

namespace Range

variable {values : List ℚ} {a b : ℚ}

/-- What is below the upper bound of a bucket is in it or below its lower bound. -/
theorem countP_open_add (hab : a ≤ b) :
    values.countP (holds ⟨some a, some b, false⟩) + values.countP (fun v => decide (v < a)) =
      values.countP fun v => decide (v < b) := by
  induction values with
  | nil => rfl
  | cons v values ih =>
    simp only [List.countP_cons, holds_open, decide_eq_true_eq]
    by_cases below : v < a
    · have lower : ¬(a ≤ v ∧ v < b) := fun h => absurd below (not_lt.2 h.1)
      rw [if_neg lower, if_pos below, if_pos (below.trans_le hab)]
      omega
    · simp only [not_lt.1 below, true_and, if_neg below]
      omega

/-- All that is not above the upper bound of the last bucket is in it or below its lower bound. -/
theorem countP_closed_add (highest : ∀ v ∈ values, v ≤ b) :
    values.countP (holds ⟨some a, some b, true⟩) + values.countP (fun v => decide (v < a)) =
      values.length := by
  have opposite : ∀ v ∈ values,
      (holds ⟨some a, some b, true⟩ v = true ↔ decide ¬decide (v < a) = true) := by
    intro v hv
    rw [holds_closed, and_iff_left (highest v hv)]
    simp
  rw [List.length_eq_countP_add_countP fun v => decide (v < a), List.countP_congr opposite,
    Nat.add_comm]

/-- The buckets between boundaries in sequence. -/
theorem chain_map {β : Type} (bound : ℕ → β) (n : ℕ) :
    chain (bound 0) ((List.range n).map fun i => bound (i + 1)) (bound (n + 1)) =
      (List.range (n + 1)).map fun i => ⟨some (bound i), some (bound (i + 1)), decide (i = n)⟩ := by
  induction n generalizing bound with
  | zero => rfl
  | succ n ih =>
    have shifted := ih fun i => bound (i + 1)
    rw [List.range_succ_eq_map, List.map_cons, List.map_map, chain_cons]
    rw [List.range_succ_eq_map (n := n + 1), List.map_cons, List.map_map]
    refine congrArg₂ List.cons (by simp) (shifted.trans (List.map_congr_left fun i _ => ?_))
    simp

end Range

/-! ### Evenly spread boundaries

A legend cuts at the same fraction of the ranks each time. The position of a boundary depends on the
number of values and of buckets only, not on the values. -/

/-- The position of a boundary among the ranks of some values, which it divides into equal parts. -/
def Cut.position (count : ℕ) (c : Cut) : ℚ := c.part * (count - 1) / c.whole

/-- The boundary at a cut, on the curve through the order statistics: the position is the cut's
share of the way to the last rank. -/
def Cut.boundary (values : List ℚ) (c : Cut) : ℚ :=
  interpolant (orderStatistic values) (c.position values.length)

namespace Cut

variable {count parts i j : ℕ} {values : List ℚ}

theorem position_zero (count parts : ℕ) : position count ⟨0, parts⟩ = 0 := by
  simp [position]

theorem position_self (count : ℕ) (positive : 0 < parts) :
    position count ⟨parts, parts⟩ = count - 1 := by
  have nonzero : (parts : ℚ) ≠ 0 := by exact_mod_cast positive.ne'
  rw [position, mul_div_cancel_left₀ _ nonzero]

theorem position_mono (some_value : 0 < count) (hij : i ≤ j) :
    position count ⟨i, parts⟩ ≤ position count ⟨j, parts⟩ := by
  have nonneg : (0 : ℚ) ≤ count - 1 := sub_nonneg.2 (by exact_mod_cast some_value)
  refine div_le_div_of_nonneg_right ?_ (Nat.cast_nonneg _)
  exact mul_le_mul_of_nonneg_right (by exact_mod_cast hij) nonneg

theorem position_nonneg (some_value : 0 < count) : 0 ≤ position count ⟨i, parts⟩ :=
  (position_zero count parts).symm.trans_le (position_mono some_value (Nat.zero_le i))

theorem position_le (some_value : 0 < count) (positive : 0 < parts) (inside : i ≤ parts) :
    position count ⟨i, parts⟩ ≤ (count - 1 : ℕ) := by
  rw [Nat.cast_pred some_value, ← position_self count positive]
  exact position_mono some_value inside

/-- The quantile at a cut is the boundary there. -/
theorem quantile_eq_boundary (h : values ≠ []) (positive : 0 < parts) (inside : i ≤ parts) :
    quantile values (toRat ⟨i, parts⟩) = some (boundary values ⟨i, parts⟩) := by
  have some_value := List.length_pos_iff.2 h
  have whole : (0 : ℚ) < parts := by exact_mod_cast positive
  have fraction : toRat ⟨i, parts⟩ = (i : ℚ) / parts := by
    rw [toRat, Rat.mkRat_eq_div]
    rfl
  have le_one : (i : ℚ) / parts ≤ 1 := (div_le_one whole).2 (by exact_mod_cast inside)
  rw [fraction, quantile_eq h (div_nonneg (Nat.cast_nonneg _) whole.le) le_one, boundary, position,
    Nat.cast_pred some_value]
  congr 2
  ring

theorem boundary_zero (values : List ℚ) (parts : ℕ) :
    boundary values ⟨0, parts⟩ = orderStatistic values 0 := by
  rw [boundary, position_zero]
  exact interpolant_natCast (orderStatistic values) 0

theorem boundary_self (h : values ≠ []) (positive : 0 < parts) :
    boundary values ⟨parts, parts⟩ = orderStatistic values (values.length - 1) := by
  rw [boundary, position_self _ positive, ← Nat.cast_pred (List.length_pos_iff.2 h)]
  exact interpolant_natCast (orderStatistic values) _

theorem boundary_mono (h : values ≠ []) (hij : i ≤ j) :
    boundary values ⟨i, parts⟩ ≤ boundary values ⟨j, parts⟩ :=
  interpolant_mono (monotone_orderStatistic values) (position_nonneg (List.length_pos_iff.2 h))
    (position_mono (List.length_pos_iff.2 h) hij)

/-- As many of different values are below a boundary as there are ranks before its position. -/
theorem countP_lt_boundary (h : values ≠ []) (distinct : values.Nodup) (positive : 0 < parts)
    (inside : i ≤ parts) : (values.countP (fun v => decide (v < boundary values ⟨i, parts⟩)) : ℤ) =
      ⌈position values.length ⟨i, parts⟩⌉ := by
  have nonneg : 0 ≤ position values.length ⟨i, parts⟩ :=
    position_nonneg (List.length_pos_iff.2 h)
  rw [boundary, countP_lt_interpolant distinct nonneg
    (position_le (List.length_pos_iff.2 h) positive inside)]
  exact Int.natCast_ceil_eq_ceil nonneg

/-- The bucket between a cut and the next one; the last one is closed above. -/
def bucket (values : List ℚ) (parts i : ℕ) : Range ℚ :=
  ⟨some (boundary values ⟨i, parts⟩), some (boundary values ⟨i + 1, parts⟩), decide (i + 1 = parts)⟩

/-- How many of different values are in a bucket: the difference of two positions rounded up, and
one more in the last bucket. -/
theorem countP_bucket (h : values ≠ []) (distinct : values.Nodup) (inside : i < parts) :
    (values.countP (bucket values parts i).holds : ℤ) =
      ⌈position values.length ⟨i + 1, parts⟩⌉ - ⌈position values.length ⟨i, parts⟩⌉ +
        if i + 1 = parts then 1 else 0 := by
  have positive : 0 < parts := by omega
  have some_value := List.length_pos_iff.2 h
  have below := countP_lt_boundary h distinct positive inside.le
  by_cases last : i + 1 = parts
  · have highest : ∀ v ∈ values, v ≤ boundary values ⟨i + 1, parts⟩ := by
      intro v hv
      rw [last, boundary_self h positive]
      exact (orderStatistic_within hv).2
    have all := Range.countP_closed_add (a := boundary values ⟨i, parts⟩) highest
    have end_position : ⌈position values.length ⟨i + 1, parts⟩⌉ = (values.length : ℤ) - 1 := by
      rw [last, position_self _ positive]
      exact_mod_cast Int.ceil_intCast ((values.length : ℤ) - 1)
    rw [bucket, decide_eq_true last, if_pos last, ← below, end_position]
    omega
  · have next := countP_lt_boundary h distinct positive (show i + 1 ≤ parts from inside)
    have rising : boundary values ⟨i, parts⟩ ≤ boundary values ⟨i + 1, parts⟩ :=
      boundary_mono h (Nat.le_succ i)
    have both := @Range.countP_open_add values _ _ rising
    rw [bucket, decide_eq_false last, if_neg last, ← below, ← next]
    omega

/-- The numbers of different values in two buckets differ by two at most. This is about the
positions alone, and needs no values. -/
theorem counts_balanced (count parts i j : ℕ) :
    (⌈position count ⟨i + 1, parts⟩⌉ - ⌈position count ⟨i, parts⟩⌉ +
        if i + 1 = parts then 1 else 0) ≤
      ⌈position count ⟨j + 1, parts⟩⌉ - ⌈position count ⟨j, parts⟩⌉ +
        (if j + 1 = parts then 1 else 0) + 2 := by
  -- All steps between positions are equal, so rounded ones are less than one away from that.
  have step (k : ℕ) : position count ⟨k + 1, parts⟩ =
      position count ⟨k, parts⟩ + (count - 1) / parts := by
    simp only [position]
    push_cast
    ring
  have most : (⌈position count ⟨i + 1, parts⟩⌉ - ⌈position count ⟨i, parts⟩⌉ : ℚ) <
      (count - 1) / parts + 1 := by
    have := Int.ceil_lt_add_one (position count ⟨i + 1, parts⟩)
    have := Int.le_ceil (position count ⟨i, parts⟩)
    linarith [step i]
  have fewest : ((count - 1) / parts - 1 : ℚ) <
      ⌈position count ⟨j + 1, parts⟩⌉ - ⌈position count ⟨j, parts⟩⌉ := by
    have := Int.le_ceil (position count ⟨j + 1, parts⟩)
    have := Int.ceil_lt_add_one (position count ⟨j, parts⟩)
    linarith [step j]
  have apart : ⌈position count ⟨i + 1, parts⟩⌉ - ⌈position count ⟨i, parts⟩⌉ <
      ⌈position count ⟨j + 1, parts⟩⌉ - ⌈position count ⟨j, parts⟩⌉ + 2 := by
    have : (⌈position count ⟨i + 1, parts⟩⌉ - ⌈position count ⟨i, parts⟩⌉ : ℚ) <
        ⌈position count ⟨j + 1, parts⟩⌉ - ⌈position count ⟨j, parts⟩⌉ + 2 := by
      linarith
    exact_mod_cast this
  split <;> split <;> omega

end Cut

/-! ### Legends

The ranges of a draft are the buckets between evenly spread cuts, the outer boundaries being the
least and the greatest value. -/

namespace Legend

variable {values : List ℚ} {n : ℕ}

/-- The buckets of a legend are those between evenly spread cuts, of which the first and the last
are the bounds of the values. -/
theorem ranges_of_draftOf (h : values ≠ []) (positive : 0 < n) {d : Draft ℚ ℕ}
    (hd : draftOf values (Cut.between n) = .ok d) :
    d.ranges = (List.range n).map (Cut.bucket values n) := by
  obtain ⟨m, rfl⟩ : ∃ m, n = m + 1 := ⟨n - 1, by omega⟩
  have lowest : Measure.least values = some (Cut.boundary values ⟨0, m + 1⟩) := by
    obtain ⟨lo, hlo, mem, below⟩ := Measure.exists_least h
    have first : orderStatistic values 0 ≤ lo := (orderStatistic_within mem).1
    rw [hlo, Cut.boundary_zero]
    exact congrArg some (le_antisymm (below _ (orderStatistic_mem h 0)) first)
  have highest : Measure.greatest values = some (Cut.boundary values ⟨m + 1, m + 1⟩) := by
    obtain ⟨hi, hhi, mem, above⟩ := Measure.exists_greatest h
    have last : hi ≤ orderStatistic values (values.length - 1) := (orderStatistic_within mem).2
    rw [hhi, Cut.boundary_self h positive]
    exact congrArg some (le_antisymm last (above _ (orderStatistic_mem h _)))
  have breaks : (Cut.between (m + 1)).map (fun c => quantile values c.toRat) =
      ((List.range m).map fun i => Cut.boundary values ⟨i + 1, m + 1⟩).map some := by
    rw [Cut.between, List.map_map, List.map_map, Nat.add_sub_cancel]
    refine List.map_congr_left fun i hi => ?_
    have inside := List.mem_range.1 hi
    exact Cut.quantile_eq_boundary h positive (by omega)
  have kept : (((List.range m).map fun i => Cut.boundary values ⟨i + 1, m + 1⟩).map some).filter
      Option.isSome = ((List.range m).map fun i => Cut.boundary values ⟨i + 1, m + 1⟩).map some :=
    List.filter_eq_self.2 fun b hb => by
      obtain ⟨x, -, rfl⟩ := List.mem_map.1 hb
      rfl
  rw [draftOf_eq, lowest, highest, breaks, kept] at hd
  obtain rfl := Except.ok.inj hd
  have chained := Range.chain_map (fun i => Cut.boundary values ⟨i, m + 1⟩) m
  refine Eq.trans ?_ (chained.trans (List.map_congr_left fun i _ => ?_))
  · rfl
  · rw [Cut.bucket]
    simp

/-- **The legend of different values has about as many of them in each bucket.** Their number only
depends on how many values and how many buckets there are, and not on the values: it is the
difference of two positions rounded up, and the last bucket has one more, as it is closed above. So
no two buckets differ by more than two. -/
theorem compute_distinct {s : Scope} {r : Relation} {field : Value} {c : Column}
    {rows : List Record} {concurrency : Value} (text : ℚ → String) (noBox : s.box = none)
    (hr : s.relation = .ok r) (hc : column r field = .ok c)
    (finite : ∀ v ∈ valuesWithin s c.name rows, v.rational?.isSome)
    (some_value : rationals s c.name rows ≠ []) (distinct : (rationals s c.name rows).Nodup)
    (few : fewestBuckets ≤ n) (many : n ≤ mostBuckets)
    (wide : ∀ jobs, ∃ width, FanOut.width concurrency jobs = .ok width) :
    ∃ l, compute (ofRows ℚ s field rows) (fun x => .ok (text x)) field (.int n) concurrency =
        .ok l ∧
      l.buckets.length = n ∧
      (∀ (i : ℕ) (hi : i < l.buckets.length), (l.buckets[i].count : ℤ) =
        ⌈((i + 1) * ((rationals s c.name rows).length - 1) / n : ℚ)⌉ -
          ⌈(i * ((rationals s c.name rows).length - 1) / n : ℚ)⌉ + if i + 1 = n then 1 else 0) ∧
      ∀ b ∈ l.buckets, ∀ b' ∈ l.buckets, b.count ≤ b'.count + 2 := by
  rw [ofRows_eq (measured?_eq noBox hr hc finite)]
  generalize rationals s c.name rows = values at some_value distinct ⊢
  have positive : 0 < n := lt_of_lt_of_le (by decide) few
  obtain ⟨d, hd, hcompute⟩ := compute_ofValues values text field few many wide
  have ranges := ranges_of_draftOf some_value positive hd
  have length : (d.counted text values).length = n := by
    rw [Draft.counted, ranges]
    simp
  have counts (i : ℕ) (hi : i < (d.counted text values).length) :
      ((d.counted text values)[i].count : ℤ) = ⌈Cut.position values.length ⟨i + 1, n⟩⌉ -
        ⌈Cut.position values.length ⟨i, n⟩⌉ + if i + 1 = n then 1 else 0 := by
    have counted : (d.counted text values)[i].count =
        values.countP (Cut.bucket values n i).holds := by
      simp [Draft.counted, ranges]
    rw [counted, Cut.countP_bucket some_value distinct (length ▸ hi)]
  refine ⟨_, hcompute, length, fun i hi => ?_, fun b hb b' hb' => ?_⟩
  · rw [counts i hi]
    simp only [Cut.position, Nat.cast_add, Nat.cast_one]
  · obtain ⟨i, hi, rfl⟩ := List.getElem_of_mem hb
    obtain ⟨j, hj, rfl⟩ := List.getElem_of_mem hb'
    have balanced := Cut.counts_balanced values.length n i j
    rw [← counts i hi, ← counts j hj] at balanced
    exact_mod_cast balanced

/-- Rows with six different values: one more row has none, and one is of another year. -/
def unlikeRows : List Record :=
  [("year", .int 2023), ("total_sales", .int 7)] :: [("year", .int 2024), ("total_sales", .null)] ::
    [7, 1, 12, 3, 8, 30].map fun value => [("year", .int 2024), ("total_sales", .int value)]

/-- Four buckets of six values hold two, one, one and two of them. -/
theorem compute_unlikeRows : rationals {} "total_sales" unlikeRows = [7, 1, 12, 3, 8, 30] ∧
    ∃ l, compute (ofRows ℚ {} (.text "total_sales") unlikeRows) (fun x => .ok (Numeral.ofRat x))
        (.text "total_sales") (.int 4) .null = .ok l ∧
      l.buckets.map Bucket.count = [2, 1, 1, 2] ∧
      ∀ b ∈ l.buckets, ∀ b' ∈ l.buckets, b.count ≤ b'.count + 2 := by
  have available : column ⟨.rollup, .commune, .apartment, .year⟩ (.text "total_sales") =
      .ok ⟨"total_sales", .integer, false⟩ := rfl
  have finite : ∀ v ∈ valuesWithin {} "total_sales" unlikeRows, v.rational?.isSome := by
    decide +kernel
  have wide : ∀ jobs, ∃ width, FanOut.width .null jobs = .ok width := fun _ => ⟨_, rfl⟩
  have values : rationals {} "total_sales" unlikeRows = [7, 1, 12, 3, 8, 30] := by decide +kernel
  obtain ⟨l, hl, length, counts, balanced⟩ := compute_distinct (n := 4) Numeral.ofRat rfl rfl
    available finite (by rw [values]; decide) (by rw [values]; decide) (by decide) (by decide) wide
  refine ⟨values, l, hl, List.ext_getElem (by simpa using length) fun i hi _ => ?_, balanced⟩
  have here := counts i (by simpa using hi)
  have evaluated : ∀ (i : ℕ) (hi : i < 4),
      (⌈((i + 1) * (6 - 1) / 4 : ℚ)⌉ - ⌈(i * (6 - 1) / 4 : ℚ)⌉ +
        if i + 1 = 4 then 1 else 0 : ℤ) = ([2, 1, 1, 2].get ⟨i, hi⟩ : ℕ) := by
    decide +kernel
  rw [values] at here
  rw [List.getElem_map]
  exact_mod_cast here.trans (evaluated i (by simpa [length] using hi))

end Legend

end PropertyMarket
