import Mathlib.Data.Int.Log
import PropertyMarket.Legend.Stored
import PropertyMarket.Proofs.Meaning
import PropertyMarket.Proofs.Nearest

/-!
# Legends computed by the store

The store is asked for the least and the greatest value of a column as it holds them, but for the
number of values in a bucket by a condition on what they are cast to. For a column in double
precision these are not the same: a cast keeps fewer digits than a bound is sent with. So what the
buckets have to reach is not the values but their casts, and a value that is cast across the outer
bounds is in no bucket at all.

This is proved of any conversions. The breaks may be any numbers that do not decrease once they are
sent; a bucket is a range of binary64 numbers here, which become bounds of its statement.

## Main definitions

* `significant` — a number to so many significant digits
* `Legend.DoubleColumn` — a field that is measured in double precision, in the rows of a scope
* `Legend.DoubleColumn.countIn` — how many of its numbers a bucket holds once they are cast
* `Legend.DoubleColumn.Reaches` — the buckets reach a number once it is cast

## Main results

* `Legend.DoubleColumn.stats_eq`, `Legend.DoubleColumn.count_eq` — what the two statements give
* `Legend.DoubleColumn.counts_add_up_iff` — the counts add up exactly if every value is reached
* `Legend.DoubleColumn.sum_countIn_eq_length_iff` — and if casting keeps the order, exactly if the
  least and the greatest value are

## Implementation notes

A `DoubleColumn` gathers what is known of a scope whose column is in double precision: the
selection, the rows that it is taken from, which of them it keeps, and the number of each. So the
statements can be evaluated without saying how the scope was written, and the results hold of every
scope for which such a structure exists.

The counts are added up over the chain of buckets as it is sent, so the sum depends on how the sent
bounds and the cast values lie to each other, and on nothing else. That casts and bounds keep
different numbers of digits is only used in the example.
-/

namespace PropertyMarket

namespace Range

variable {β γ : Type}

/-- A bucket with other bounds. -/
def map (f : β → γ) (r : Range β) : Range γ := ⟨r.lower.map f, r.upper.map f, r.isLast⟩

theorem map_chain (f : β → γ) (a : β) (bs : List β) (c : β) :
    (chain a bs c).map (map f) = chain (f a) (bs.map f) (f c) := by
  induction bs generalizing a with
  | nil => rfl
  | cons b bs ih =>
    rw [chain_cons, List.map_cons, ih, List.map_cons, chain_cons]
    rfl

/-- The buckets between boundaries are bounded by two of them. -/
theorem bounds_of_mem_chain {a c : β} {bs : List β} {r : Range β} (h : r ∈ chain a bs c) :
    ∃ lower ∈ a :: bs ++ [c], ∃ upper ∈ a :: bs ++ [c], ∃ isLast,
      r = ⟨some lower, some upper, isLast⟩ := by
  induction bs generalizing a with
  | nil =>
    obtain rfl := List.mem_singleton.1 h
    exact ⟨a, by simp, c, by simp, true, rfl⟩
  | cons b bs ih =>
    rw [chain_cons] at h
    obtain rfl | h := List.mem_cons.1 h
    · exact ⟨a, by simp, b, by simp, false, rfl⟩
    · obtain ⟨lower, hl, upper, hu, isLast, rfl⟩ := ih h
      exact ⟨lower, List.mem_cons_of_mem a hl, upper, List.mem_cons_of_mem a hu, isLast, rfl⟩

end Range

/-- A number to so many significant digits: it is divided by the unit of its last digit, rounded to
a whole number, and multiplied again. -/
def significant (digits : ℕ) (x : ℚ) : ℚ :=
  let unit : ℚ := 10 ^ (Int.log 10 |x| + 1 - digits)
  roundRat 0 (x / unit) * unit

/-- Double precision is cast to fifteen significant digits, and sent with seventeen. -/
def Dialect.fifteenDigits : Dialect where
  toDouble x := (Double.nearest x).toRat?
  toExact := significant 15
  sent := significant 17
  likes _ _ := false
  meets _ _ := false

namespace Legend

variable {d : Dialect} {tables : Tables} {s : Scope} {field : Value}

/-- A field that is measured in double precision, in the rows of a scope. It is what the statements
of its legend are answered from. -/
structure DoubleColumn (d : Dialect) (tables : Tables) (s : Scope) (field : Value) where
  selection : Selection
  select_eq : s.select field = .ok selection
  /-- The rows that the scope is taken from. -/
  rows : List Env
  rows_eq : selection.source.envs d tables = .ok rows
  within : Env → Bool
  within_eq : ∀ env ∈ rows, Condition.holdAll d selection.conditions env = .ok (within env)
  /-- What a row measures, if it does. -/
  number : Env → Option ℚ
  number_eq : ∀ env ∈ rows,
    selection.metric.cell d [env] = .ok ((number env).elim .null (.number .double))

theorem Scope.isNotNull_mem {selection : Selection} (h : s.select field = .ok selection) :
    .isNotNull selection.metric ∈ selection.conditions := by
  obtain ⟨r, -, h⟩ := Outcome.bind_eq_ok_iff.1 h
  obtain ⟨c, -, h⟩ := Outcome.bind_eq_ok_iff.1 h
  obtain rfl := Except.ok.inj h
  simp

namespace DoubleColumn

variable (c : DoubleColumn d tables s field)

/-- What is measured in the rows of the scope. -/
def values : List ℚ := (c.rows.filter c.within).filterMap c.number

/-- Every row of the scope measures something. -/
theorem isSome_number {env : Env} (h : env ∈ c.rows.filter c.within) : (c.number env).isSome := by
  obtain ⟨mem, within⟩ := List.mem_filter.1 h
  have all := Condition.holdAll_eq_true_iff.1 ((c.within_eq env mem).trans (congrArg _ within))
  have present := all _ (Scope.isNotNull_mem c.select_eq)
  rw [Condition.truth_isNotNull (c.number_eq env mem)] at present
  cases found : c.number env with
  | some x => rfl
  | none => simp [found, Truth.ofBool] at present

/-- The cells of the rows of the scope whose number satisfies a condition. -/
theorem cells_eq (p : ℚ → Bool) :
    ((c.rows.filter fun env => c.within env && (c.number env).any p).mapM fun env =>
      c.selection.metric.cell d [env]) = .ok ((c.values.filter p).map (Cell.number .double)) := by
  rw [Outcome.mapM_eq_ok_map (g := fun env => (c.number env).elim .null (.number .double))
    fun env henv => c.number_eq env (List.mem_filter.1 henv).1]
  have split : (c.rows.filter fun env => c.within env && (c.number env).any p) =
      (c.rows.filter c.within).filter fun env => (c.number env).any p := by
    rw [List.filter_filter]
    exact List.filter_congr fun _ _ => Bool.and_comm _ _
  rw [split, values]
  have present : ∀ env ∈ c.rows.filter c.within, (c.number env).isSome := fun _ => c.isSome_number
  generalize c.rows.filter c.within = kept at present ⊢
  refine congrArg Except.ok ?_
  induction kept with
  | nil => rfl
  | cons env kept ih =>
    obtain ⟨first, rest⟩ := List.forall_mem_cons.1 present
    obtain ⟨x, hx⟩ := Option.isSome_iff_exists.1 first
    by_cases holds : p x
    · simp [hx, holds, ih rest]
    · simp [hx, holds, ih rest]

/-- The cells of the rows of the scope. -/
theorem cells_within :
    ((c.rows.filter c.within).mapM fun env => c.selection.metric.cell d [env]) =
      .ok (c.values.map (Cell.number .double)) := by
  have all : (c.rows.filter fun env => c.within env && (c.number env).any fun _ => true) =
      c.rows.filter c.within := by
    refine List.filter_congr fun env henv => ?_
    cases within : c.within env with
    | false => rfl
    | true =>
      obtain ⟨x, hx⟩ :=
        Option.isSome_iff_exists.1 (c.isSome_number (List.mem_filter.2 ⟨henv, within⟩))
      rw [hx]
      rfl
  have cells := c.cells_eq fun _ => true
  rwa [all, List.filter_true] at cells

/-! ### Statistics

The store computes the statistics of the values as they are stored. Its least and its greatest value
are therefore the uncast ones. -/

section Stats

variable {lo hi : ℚ}

/-- A percentile of what is measured is a number. -/
theorem exists_percentile (least : Measure.least c.values = some lo)
    (greatest : Measure.greatest c.values = some hi)
    (inRange : ∀ x, lo ≤ x → x ≤ hi → (d.toDouble x).isSome) {fraction : Value} {k : Cell.Kind}
    {f : ℚ} (hf : Cell.ofValue fraction = .ok (.number k f)) (nonneg : 0 ≤ f) (le_one : f ≤ 1) :
    ∃ x, (Term.percentile fraction c.selection.metric).cell d (c.rows.filter c.within) =
      .ok (.number .double x) := by
  obtain ⟨lo_mem, below⟩ := Measure.least_spec least
  obtain ⟨-, above⟩ := Measure.greatest_spec greatest
  have nonempty : c.values ≠ [] := List.ne_nil_of_mem lo_mem
  obtain ⟨x, hx, among⟩ := d.percentile_number k .double nonempty nonneg le_one
  obtain ⟨x', among', ⟨a, ha, hax⟩, b, hb, hxb⟩ := quantile_within nonempty nonneg le_one
  obtain rfl := Option.some.inj (among.symm.trans among')
  obtain ⟨y, hy⟩ :=
    Option.isSome_iff_exists.1 (inRange x ((below a ha).trans hax) (hxb.trans (above b hb)))
  refine ⟨y, ?_⟩
  rw [Term.cell_percentile hf c.cells_within, hx, Dialect.double, hy]
  rfl

/-- What is shown of the breaks that belong to some fractions. -/
def breakOutputs (metric : Term) (fractions : List Value) : List Output :=
  fractions.mapIdx fun i f => ⟨.percentile f metric, some (breakLabel i)⟩

/-- Every break can be shown. -/
theorem exists_breaks (least : Measure.least c.values = some lo)
    (greatest : Measure.greatest c.values = some hi)
    (inRange : ∀ x, lo ≤ x → x ≤ hi → (d.toDouble x).isSome) {fractions : List Value}
    (hf : ∀ f ∈ fractions, ∃ k q, Cell.ofValue f = .ok (.number k q) ∧ 0 ≤ q ∧ q ≤ 1) :
    ∃ cells, Output.row d (breakOutputs c.selection.metric fractions) (c.rows.filter c.within) =
      .ok cells := by
  refine Outcome.exists_mapM_eq_ok_iff.2 fun o ho => ?_
  obtain ⟨i, hi, rfl⟩ := List.mem_mapIdx.1 ho
  obtain ⟨k, q, hq, nonneg, le_one⟩ := hf _ (List.getElem_mem hi)
  obtain ⟨x, hx⟩ := c.exists_percentile least greatest inRange hq nonneg le_one
  exact ⟨_, by rw [hx]; rfl⟩

/-- What is shown of all that is measured. -/
def summaryOutputs (metric : Term) : List Output :=
  [⟨.aggregate .min metric, some "min"⟩, ⟨.aggregate .max metric, some "max"⟩,
    ⟨.percentile (.double Cut.middle.toDouble) metric, some "median"⟩, countOutput metric]

theorem ofValue_middle :
    Cell.ofValue (.double Cut.middle.toDouble) = .ok (.number .double (1 / 2)) := by
  have half : Cut.middle.toDouble = .finite false (2 ^ 52) (-53) := by decide +kernel
  rw [half, Cell.ofValue_double rfl, Double.value_finite]
  norm_num

/-- The least and the greatest number are shown as they are stored. -/
theorem exists_summary (least : Measure.least c.values = some lo)
    (greatest : Measure.greatest c.values = some hi)
    (inRange : ∀ x, lo ≤ x → x ≤ hi → (d.toDouble x).isSome) :
    ∃ median, Output.row d (summaryOutputs c.selection.metric) (c.rows.filter c.within) =
      .ok [("min", .number .double lo), ("max", .number .double hi),
        ("median", .number .double median), ("count", .int c.values.length)] := by
  obtain ⟨median, hmedian⟩ := c.exists_percentile least greatest inRange ofValue_middle
    (by norm_num) (by norm_num)
  have min := Term.cell_aggregate .min c.cells_within
  rw [Dialect.aggregate_min, least] at min
  have max := Term.cell_aggregate .max c.cells_within
  rw [Dialect.aggregate_max, greatest] at max
  have count := Term.cell_aggregate .count c.cells_within
  rw [Dialect.aggregate_count] at count
  have counted := (Term.cell_cast .integer count).trans (Dialect.cast_int d _)
  refine ⟨median, ?_⟩
  rw [Output.row, summaryOutputs, List.mapM_cons, min, List.mapM_cons, max, List.mapM_cons, hmedian,
    List.mapM_cons, countOutput, Aggregate.term, counted]
  rfl

/-- The statement for the statistics gives the least and the greatest measured number as they are
stored, and how many there are. -/
theorem stats_eq (least : Measure.least c.values = some lo)
    (greatest : Measure.greatest c.values = some hi)
    (inRange : ∀ x, lo ≤ x → x ≤ hi → (d.toDouble x).isSome) {fractions : List Value}
    (hf : ∀ f ∈ fractions, ∃ k q, Cell.ofValue f = .ok (.number k q) ∧ 0 ≤ q ∧ q ≤ 1) :
    ∃ statement row, statsStatement s field fractions = .ok statement ∧
      statement.rows d tables = .ok [row] ∧
      row.lookup "min" = some (.number .double lo) ∧
      row.lookup "max" = some (.number .double hi) ∧
      row.lookup "count" = some (.int c.values.length) := by
  obtain ⟨median, summary⟩ := c.exists_summary least greatest inRange
  obtain ⟨breaks, hbreaks⟩ := c.exists_breaks least greatest inRange hf
  refine ⟨_, [("min", .number .double lo), ("max", .number .double hi),
    ("median", .number .double median), ("count", .int c.values.length)] ++ breaks,
    by rw [statsStatement, c.select_eq, Outcome.ok_bind]; rfl, ?_, rfl, rfl, rfl⟩
  exact Query.rows_computed c.rows_eq (Env.select_eq c.within_eq) rfl rfl
    (Outcome.mapM_append_eq_ok summary hbreaks)

end Stats

/-! ### Counts

A bucket becomes two conditions on the cast column. They hold of a row exactly if the bucket, as it
is sent, holds the cast number. -/

/-- The number that a bound is sent as. -/
def sentBound (d : Dialect) (x : Double) : ℚ := d.sent x.value

/-- A bucket as it is sent. -/
def sentRange (d : Dialect) (r : Range Double) : Range ℚ := r.map (sentBound d)

/-- How many measured numbers a bucket holds once they are cast. This is the count that the store
gives for the bucket. -/
def countIn (r : Range Double) : ℕ :=
  c.values.countP fun x => (sentRange d r).holds (d.toExact x)

section Count

variable {lower upper : Double} {isLast : Bool}

/-- The condition that a bound puts on a measured number. -/
theorem truth_bound (comparator : Comparator) {bound : Double} (finite : bound.isFinite)
    {metric : Term} {env : Env} {number : Option ℚ}
    (hmetric : metric.cell d [env] = .ok (number.elim .null (.number .double))) :
    (Condition.compare comparator (.cast metric .number) (.bound (.double bound))).truth d [env] =
      .ok (number.elim .unknown fun x =>
        .ofBool (comparator.accepts (compare (d.toExact x) (sentBound d bound)))) := by
  have sent : (Term.bound (.double bound)).cell d [env] = .ok (.number .double bound.value) :=
    Cell.ofValue_double finite
  cases number with
  | none =>
    have cast : (Term.cast metric .number).cell d [env] = .ok .null := Term.cell_cast _ hmetric
    rw [Condition.truth_compare comparator cast sent, Dialect.test_null_left]
    rfl
  | some x =>
    have cast : (Term.cast metric .number).cell d [env] = .ok (.number .exact (d.toExact x)) :=
      Term.cell_cast _ hmetric
    rw [Condition.truth_compare comparator cast sent]
    rfl

/-- The conditions of a bucket hold of a row if the bucket holds the cast number. -/
theorem exists_conditions (d : Dialect) (isLast : Bool) (metric : Term) (hl : lower.isFinite)
    (hu : upper.isFinite) :
    ∃ conditions,
      ((Range.mk (some lower) (some upper) isLast).map Value.double).conditions metric =
        .ok conditions ∧
      ∀ (env : Env) (number : Option ℚ),
        metric.cell d [env] = .ok (number.elim .null (.number .double)) →
        Condition.holdAll d conditions env = .ok (number.any fun x =>
          (sentRange d ⟨some lower, some upper, isLast⟩).holds (d.toExact x)) := by
  refine ⟨_, rfl, fun env number hmetric => ?_⟩
  have below := Condition.holdAll_singleton (truth_bound .ge hl hmetric)
  have above := Condition.holdAll_singleton (truth_bound (if isLast then .le else .lt) hu hmetric)
  refine (Condition.holdAll_append below above).trans ?_
  cases number with
  | none => rfl
  | some x =>
    refine congrArg Except.ok (Bool.eq_iff_iff.2 ?_)
    rw [Bool.and_eq_true, decide_eq_true_iff, decide_eq_true_iff, Option.elim_some,
      Option.elim_some, Truth.ofBool_eq_yes, Truth.ofBool_eq_yes, Comparator.accepts_compare,
      Comparator.accepts_compare, Option.any_some]
    cases isLast with
    | true => exact (Range.holds_closed (β := ℚ)).symm
    | false => exact (Range.holds_open (β := ℚ)).symm

/-- The statement for a bucket gives the number of values of which it holds the cast. -/
theorem count_eq (hl : lower.isFinite) (hu : upper.isFinite) :
    ∃ statement,
      countStatement s field ((Range.mk (some lower) (some upper) isLast).map Value.double) =
        .ok statement ∧
      statement.rows d tables =
        .ok [[("count", .int (c.countIn ⟨some lower, some upper, isLast⟩))]] := by
  rw [countIn]
  obtain ⟨conditions, hconditions, holds⟩ :=
    exists_conditions d isLast c.selection.metric hl hu
  generalize (Range.mk (some lower) (some upper) isLast).map Value.double = range at *
  generalize hp : (fun x => (sentRange d ⟨some lower, some upper, isLast⟩).holds (d.toExact x)) = p
    at *
  refine ⟨_, by
    rw [countStatement, c.select_eq, Outcome.ok_bind, hconditions, Outcome.ok_bind]
    rfl, ?_⟩
  have kept : Env.select d (c.selection.conditions ++ conditions) c.rows =
      .ok (c.rows.filter fun env => c.within env && (c.number env).any p) :=
    Env.select_eq fun env henv => Condition.holdAll_append (c.within_eq env henv)
      (holds env (c.number env) (c.number_eq env henv))
  have counted : ((countOutput c.selection.metric).term).cell d
      (c.rows.filter fun env => c.within env && (c.number env).any p) =
        .ok (.int (c.values.countP p)) := by
    have count := Term.cell_aggregate .count (c.cells_eq p)
    rw [Dialect.aggregate_count, ← List.countP_eq_length_filter] at count
    exact (Term.cell_cast .integer count).trans (Dialect.cast_int d _)
  refine Query.rows_computed c.rows_eq kept rfl rfl ?_
  rw [Output.row, List.mapM_cons, counted]
  rfl

end Count

/-- The buckets from a least number over breaks to a greatest one reach a number once it is cast. -/
def Reaches (d : Dialect) (lo : Double) (breaks : List Double) (hi : Double) (x : ℚ) : Prop :=
  Range.Covers (sentBound d lo) (breaks.map (sentBound d)) (sentBound d hi) (d.toExact x)

instance (d : Dialect) (lo : Double) (breaks : List Double) (hi : Double) (x : ℚ) :
    Decidable (Reaches d lo breaks hi x) :=
  inferInstanceAs (Decidable (Range.Covers _ _ _ _))

section Sum

variable {lo hi : Double} {breaks : List Double}

/-- The counts of the buckets add up to the number of values that the buckets reach. -/
theorem sum_countIn (sorted : (breaks.map (sentBound d)).Pairwise (· ≤ ·)) :
    ((Range.chain lo breaks hi).map c.countIn).sum =
      c.values.countP fun x => decide (Reaches d lo breaks hi x) := by
  have cast (r : Range Double) :
      c.countIn r = (c.values.map d.toExact).countP (sentRange d r).holds := by
    rw [List.countP_map]
    rfl
  calc ((Range.chain lo breaks hi).map c.countIn).sum
      = (((Range.chain lo breaks hi).map (sentRange d)).map fun r =>
          (c.values.map d.toExact).countP r.holds).sum := by
        rw [List.map_map]
        exact congrArg List.sum (List.map_congr_left fun r _ => cast r)
    _ = (c.values.map d.toExact).countP fun v =>
          decide (Range.Covers (sentBound d lo) (breaks.map (sentBound d)) (sentBound d hi) v) := by
        rw [← Range.sum_counts_eq sorted, ← Range.map_chain]
        rfl
    _ = c.values.countP fun x => decide (Reaches d lo breaks hi x) := by
        rw [List.countP_map]
        rfl

/-- **The counts of a stored legend add up exactly if its buckets reach every cast value.**

The statement for the statistics gives the least and the greatest number as they are stored; the
statement for a bucket compares what the stored numbers are cast to. A cast that lies outside of the
outer bounds is in no bucket, and its value is missing from the sum. -/
theorem counts_add_up_iff (finite : ∀ b ∈ lo :: breaks ++ [hi], b.isFinite)
    (least : Measure.least c.values = some lo.value)
    (greatest : Measure.greatest c.values = some hi.value)
    (inRange : ∀ x, lo.value ≤ x → x ≤ hi.value → (d.toDouble x).isSome) {fractions : List Value}
    (hf : ∀ f ∈ fractions, ∃ k q, Cell.ofValue f = .ok (.number k q) ∧ 0 ≤ q ∧ q ≤ 1)
    (sorted : (breaks.map (sentBound d)).Pairwise (· ≤ ·)) :
    (∃ statement row, statsStatement s field fractions = .ok statement ∧
      statement.rows d tables = .ok [row] ∧
      row.lookup "min" = some (.number .double lo.value) ∧
      row.lookup "max" = some (.number .double hi.value) ∧
      row.lookup "count" = some (.int c.values.length)) ∧
    (∀ r ∈ Range.chain lo breaks hi, ∃ statement,
      countStatement s field (r.map Value.double) = .ok statement ∧
      statement.rows d tables = .ok [[("count", .int (c.countIn r))]]) ∧
    (((Range.chain lo breaks hi).map c.countIn).sum = c.values.length ↔
      ∀ x ∈ c.values, Reaches d lo breaks hi x) ∧
    ((∃ r ∈ Range.chain lo breaks hi, (sentRange d r).holds (d.toExact lo.value) = true) ↔
      Reaches d lo breaks hi lo.value) := by
  refine ⟨c.stats_eq least greatest inRange hf, fun r hr => ?_, ?_, ?_⟩
  · obtain ⟨lower, hl, upper, hu, isLast, rfl⟩ := Range.bounds_of_mem_chain hr
    exact c.count_eq (finite lower hl) (finite upper hu)
  · rw [c.sum_countIn sorted, List.countP_eq_length]
    simp only [decide_eq_true_iff]
  · have once := Range.countP_holds_eq (a := sentBound d lo) (c := sentBound d hi)
      (v := d.toExact lo.value) sorted
    rw [← Range.map_chain, List.countP_map] at once
    have counted : 0 < (Range.chain lo breaks hi).countP
        ((fun r => r.holds (d.toExact lo.value)) ∘ Range.map (sentBound d)) ↔
        Reaches d lo breaks hi lo.value := by
      rw [once, Reaches]
      split <;> simp_all
    rw [← counted, List.countP_pos_iff]
    rfl

/-- Where casting keeps the order and the breaks lie between the least and the greatest number,
the counts add up exactly if these two are not cast across their own bounds. -/
theorem sum_countIn_eq_length_iff (mono : Monotone d.toExact)
    (least : Measure.least c.values = some lo.value)
    (greatest : Measure.greatest c.values = some hi.value)
    (sorted : (breaks.map (sentBound d)).Pairwise (· ≤ ·))
    (within : ∀ b ∈ breaks.map (sentBound d), sentBound d lo ≤ b ∧ b ≤ sentBound d hi) :
    ((Range.chain lo breaks hi).map c.countIn).sum = c.values.length ↔
      sentBound d lo ≤ d.toExact lo.value ∧ d.toExact hi.value ≤ sentBound d hi := by
  obtain ⟨lo_mem, below⟩ := Measure.least_spec least
  obtain ⟨hi_mem, above⟩ := Measure.greatest_spec greatest
  rw [c.sum_countIn sorted, List.countP_eq_length]
  simp only [decide_eq_true_iff]
  constructor
  · intro all
    exact ⟨((Range.covers_iff_of_within within).1 (all _ lo_mem)).1,
      ((Range.covers_iff_of_within within).1 (all _ hi_mem)).2⟩
  · rintro ⟨low, high⟩ x hx
    exact (Range.covers_iff_of_within within).2
      ⟨low.trans (mono (below x hx)), (mono (above x hx)).trans high⟩

end Sum

end DoubleColumn

/-! ### A lost value

A rollup with a single value, which has more digits than a cast keeps. It is the least value and the
greatest one, and its cast is neither. -/

/-- The binary64 number next above three tenths. -/
def aboveThreeTenths : Double := .finite false 5404319552844596 (-54)

/-- A rollup with one row, which measures the number above three tenths. -/
def oneRow : Tables := fun table =>
  if table = "apartments_by_insee_code_year" then
    [Record.stored [("year", .int 2024), ("avg_price", .double aboveThreeTenths)]]
  else []

/-- The measured column of the one row. -/
def oneRowColumn : DoubleColumn Dialect.fifteenDigits oneRow {} (.text "avg_price") where
  selection := ⟨⟨⟨"apartments_by_insee_code_year", none⟩, none⟩,
    [.compare .eq (.column "apartments_by_insee_code_year" "year") (.bound (.int 2024)),
      .isNotNull (.column "apartments_by_insee_code_year" "avg_price")],
    .column "apartments_by_insee_code_year" "avg_price"⟩
  select_eq := rfl
  rows := [Env.empty.extend "apartments_by_insee_code_year"
    (Record.stored [("year", .int 2024), ("avg_price", .double aboveThreeTenths)])]
  rows_eq := rfl
  within _ := true
  within_eq env henv := by
    obtain rfl := List.mem_singleton.1 henv
    rfl
  number _ := some aboveThreeTenths.value
  number_eq env henv := by
    obtain rfl := List.mem_singleton.1 henv
    rfl

/-- The one value is counted by the statistics, and in no bucket: it is cast to three tenths, which
is below the least value. -/
theorem counts_oneRow :
    (∃ statement row, statsStatement {} (.text "avg_price") [] = .ok statement ∧
      statement.rows Dialect.fifteenDigits oneRow = .ok [row] ∧
      row.lookup "count" = some (.int 1)) ∧
    (∃ statement, countStatement {} (.text "avg_price")
        ⟨some (.double aboveThreeTenths), some (.double aboveThreeTenths), true⟩ = .ok statement ∧
      statement.rows Dialect.fifteenDigits oneRow = .ok [[("count", .int 0)]]) ∧
    ((Range.chain aboveThreeTenths [] aboveThreeTenths).map oneRowColumn.countIn).sum ≠ 1 := by
  have inRange : ∀ x, aboveThreeTenths.value ≤ x → x ≤ aboveThreeTenths.value →
      (Dialect.fifteenDigits.toDouble x).isSome := by
    intro x low high
    obtain rfl := le_antisymm high low
    decide +kernel
  have finite : ∀ b ∈ aboveThreeTenths :: [] ++ [aboveThreeTenths], b.isFinite := by decide
  have noFraction : ∀ f ∈ ([] : List Value), ∃ k q, Cell.ofValue f = .ok (.number k q) ∧
      0 ≤ q ∧ q ≤ 1 := by simp
  obtain ⟨⟨statement, row, hs, hrow, -, -, hcount⟩, counts, sum, -⟩ :=
    oneRowColumn.counts_add_up_iff finite rfl rfl inRange noFraction List.Pairwise.nil
  have none : oneRowColumn.countIn ⟨some aboveThreeTenths, some aboveThreeTenths, true⟩ = 0 := by
    decide +kernel
  obtain ⟨bucket, hbucket, hcounted⟩ := counts _ (List.mem_singleton_self _)
  rw [none] at hcounted
  refine ⟨⟨statement, row, hs, hrow, hcount⟩, ⟨bucket, hbucket, hcounted⟩, fun all => ?_⟩
  have lost : ¬DoubleColumn.Reaches Dialect.fifteenDigits aboveThreeTenths [] aboveThreeTenths
      aboveThreeTenths.value := by
    decide +kernel
  exact lost (sum.1 all _ (List.mem_singleton_self _))

end Legend

end PropertyMarket
