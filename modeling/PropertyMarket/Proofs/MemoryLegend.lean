import PropertyMarket.Legend.Memory
import PropertyMarket.Proofs.Buckets
import PropertyMarket.Proofs.Outcome
import PropertyMarket.Proofs.Quantile

/-!
# Legends of rows at hand divide their values

A legend of rows at hand puts every measured value into one bucket. In exact arithmetic this holds
of any rows, also where the values have ties or are fewer than the buckets: the breaks are
quantiles, so they do not decrease and lie among the values, and buckets between such breaks hold
each value once.

## Main definitions

* `Legend.rationals` — what is measured, in exact arithmetic
* `Legend.ranges` — the buckets of a legend, as they are counted
* `Legend.Divides` — a legend divides values into a number of buckets

## Main results

* `Legend.compute_eq` — the legend of a provider with known counts, written out
* `Legend.divides_of_ofValues` — it divides them
* `Legend.compute_ofRows` — so does the legend of the measured values of rows within a scope

## Implementation notes

That the buckets divide the values is proved of any list of values, and the scope only comes in at
the end, where it says which list it is. The counts are those of the model, bucket by bucket; what
is added here is the description of the buckets as a chain from the least value over the breaks to
the greatest one, to which the results about chains apply.
-/

namespace PropertyMarket

/-! ### What is measured

The values at hand are read as numbers before anything is computed of them, and each of them has to
be finite. In exact arithmetic they are then rational numbers, one for each row that has a value. -/

/-- A cut as a fraction. -/
def Cut.toRat (c : Cut) : ℚ := mkRat c.part c.whole

/-- The label of a bucket whose bounds can all be written. -/
def Range.written {β : Type} (text : β → String) (r : Range β) : String :=
  match r.lower, r.upper with
  | none, none => "No data"
  | none, some upper => "≤ " ++ text upper
  | some lower, none => "> " ++ text lower
  | some lower, some upper => text lower ++ " - " ++ text upper

theorem Range.label_eq {β : Type} (text : β → String) (r : Range β) :
    r.label (fun x => .ok (text x)) = .ok (r.written text) := by
  obtain ⟨_ | lower, _ | upper, isLast⟩ := r <;> rfl

namespace Legend

/-- The measured values of the rows within a scope, in exact arithmetic and in the order of the
rows. -/
def rationals (s : Scope) (column : String) (rows : List Record) : List ℚ :=
  (valuesWithin s column rows).filterMap Value.rational?

/-- There is one measured value for each row within the scope that has one. -/
theorem length_rationals {s : Scope} {column : String} {rows : List Record}
    (finite : ∀ v ∈ valuesWithin s column rows, v.rational?.isSome) :
    (rationals s column rows).length =
      rows.countP fun row => s.holds row && !(row.getD column).isNull := by
  rw [rationals, List.length_filterMap_eq_countP, List.countP_eq_length.2 finite, valuesWithin,
    ← List.countP_eq_length_filter, List.countP_map, List.countP_filter]
  exact List.countP_congr fun row _ => by simp [and_comm]

/-- Values that are finite numbers are measured as they are. -/
theorem exists_rationals {values : List Value} (finite : ∀ v ∈ values, v.rational?.isSome) :
    ∃ numbers, values.mapM Value.number? = some numbers ∧
      numbers.mapM (Measure.ofNumber (β := ℚ)) = .ok (values.filterMap Value.rational?) := by
  induction values with
  | nil => exact ⟨[], rfl, rfl⟩
  | cons v values ih =>
    obtain ⟨numbers, hread, hmeasured⟩ := ih fun w hw => finite w (List.mem_cons_of_mem v hw)
    obtain ⟨q, hq⟩ := Option.isSome_iff_exists.1 (finite v List.mem_cons_self)
    obtain ⟨x, hx, hxq⟩ := Option.bind_eq_some_iff.1 hq
    have measured : Measure.ofNumber (β := ℚ) x = .ok q := by
      simp [Measure.ofNumber, hxq]
    refine ⟨x :: numbers, ?_, ?_⟩
    · rw [List.mapM_cons, hx, hread]
      rfl
    · rw [List.mapM_cons, measured, hmeasured, List.filterMap_cons, hq]
      rfl

/-- What is measured at hand is what the values within the scope are read as. -/
theorem measured?_of_numbers {β : Type} [Measure β] {s : Scope} {r : Relation} {field : Value}
    {c : Column} {rows : List Record} {numbers : List Number} {values : List β}
    (noBox : s.box = none) (hr : s.relation = .ok r) (hc : column r field = .ok c)
    (read : (valuesWithin s c.name rows).mapM Value.number? = some numbers)
    (measured : numbers.mapM Measure.ofNumber = .ok values) :
    measured? β s field rows = .ok (some values) := by
  have unboxed : ¬s.box.isSome := by simp [noBox]
  have numbers_eq : numbers? (valuesWithin s c.name rows) = .ok (some numbers) := by
    rw [numbers?, read]
  rw [measured?, if_neg unboxed, hr, Outcome.ok_bind, hc, Outcome.ok_bind, numbers_eq,
    Outcome.ok_bind]
  dsimp only
  rw [measured]
  rfl

theorem measured?_eq {s : Scope} {r : Relation} {field : Value} {c : Column} {rows : List Record}
    (noBox : s.box = none) (hr : s.relation = .ok r) (hc : column r field = .ok c)
    (finite : ∀ v ∈ valuesWithin s c.name rows, v.rational?.isSome) :
    measured? ℚ s field rows = .ok (some (rationals s c.name rows)) := by
  obtain ⟨numbers, read, measured⟩ := exists_rationals finite
  exact measured?_of_numbers noBox hr hc read measured

/-- Rows are counted by their measured values. -/
theorem ofRows_eq {β : Type} [Measure β] {s : Scope} {field : Value} {rows : List Record}
    {values : List β} (h : measured? β s field rows = .ok (some values)) :
    ofRows β s field rows = ofValues values := by
  unfold ofRows
  rw [h]
  rfl

/-! ### The legend of known counts

Where all counts succeed there is nothing to schedule, and the legend is what is put together of the
draft and of the counts in their order. This holds of any provider. -/

section Counts

variable {β γ : Type} {p : Provider β γ} {count : Range β → γ}

theorem counts_eq (counted : ∀ i r, p.count i r = .ok (count r)) (d : Draft β γ) :
    (p.counts d).mapM id = .ok (d.ranges.map count) := by
  have counts : p.counts d = d.ranges.map fun r => .ok (count r) := by
    refine List.ext_getElem (by simp [Provider.counts]) fun i _ _ => ?_
    simp [Provider.counts, counted]
  rw [counts, List.mapM_map]
  exact Outcome.mapM_eq_ok_map fun _ _ => rfl

theorem finish_eq (text : β → String) (field : Value) (d : Draft β γ) (count : Range β → γ) :
    d.finish (fun x => .ok (text x)) field (d.ranges.map count) =
      .ok ⟨field, d.stats, d.breaks,
        d.ranges.map fun r => ⟨r.lower, r.upper, r.written text, count r⟩⟩ := by
  rw [Draft.finish, ← List.map_prod_left_eq_zip, List.mapM_map, Outcome.mapM_eq_ok_map
    (g := fun r => ⟨r.lower, r.upper, r.written text, count r⟩)]
  · rfl
  · intro r _
    simp [Range.label_eq]

/-- The legend of a provider with a known draft and known counts. Nothing can fail after that if the
bounds can be written. -/
theorem compute_eq {d : Draft β γ} {parts concurrency : Value} {n : ℕ}
    (parts_eq : bucketCount parts = .ok n) (draft : p.draft (Cut.between n) = .ok d)
    (counted : ∀ i r, p.count i r = .ok (count r))
    (wide : ∀ jobs, ∃ width, FanOut.width concurrency jobs = .ok width) (text : β → String)
    (field : Value) :
    compute p (fun x => .ok (text x)) field parts concurrency =
      .ok ⟨field, d.stats, d.breaks,
        d.ranges.map fun r => ⟨r.lower, r.upper, r.written text, count r⟩⟩ := by
  obtain ⟨width, hwidth⟩ := wide d.ranges.length
  have prepared : p.prepare parts concurrency = .ok (d, width) := by
    rw [Provider.prepare, parts_eq, Outcome.ok_bind, draft, Outcome.ok_bind, hwidth]
    rfl
  rw [compute, prepared, Outcome.ok_bind]
  dsimp only
  rw [counts_eq counted, Outcome.ok_bind, finish_eq]

end Counts

/-! ### The legend of values

The draft of values consists of extremes and quantiles. It always exists in exact arithmetic, so the
legend of values does. -/

/-- The draft of values in exact arithmetic. -/
theorem draftOf_eq (values : List ℚ) (cuts : List Cut) :
    draftOf values cuts = .ok ⟨⟨Measure.least values, Measure.greatest values,
      quantile values Cut.middle.toRat, values.length⟩,
      (cuts.map fun c => quantile values c.toRat).filter Option.isSome⟩ := by
  have breaks : cuts.mapM (Measure.quantile values) =
      .ok (cuts.map fun c => quantile values c.toRat) := Outcome.mapM_eq_ok_map fun _ _ => rfl
  rw [draftOf, breaks]
  rfl

/-- The buckets of a draft, counted. -/
def Draft.counted {β : Type} [Measure β] (d : Draft β Nat) (text : β → String) (values : List β) :
    List (Bucket β Nat) :=
  d.ranges.map fun r => ⟨r.lower, r.upper, r.written text, values.countP r.holds⟩

theorem bucketCount_eq {n : ℕ} (few : fewestBuckets ≤ n) (many : n ≤ mostBuckets) :
    bucketCount (.int n) = .ok n := by
  have within : ((fewestBuckets : ℕ) : ℤ) ≤ n ∧ (n : ℤ) ≤ (mostBuckets : ℕ) :=
    ⟨Int.ofNat_le.2 few, Int.ofNat_le.2 many⟩
  rw [bucketCount, if_pos within, Int.toNat_natCast]

/-- The legend of values, written out. -/
theorem compute_ofValues (values : List ℚ) (text : ℚ → String) (field : Value) {n : ℕ}
    {concurrency : Value} (few : fewestBuckets ≤ n) (many : n ≤ mostBuckets)
    (wide : ∀ jobs, ∃ width, FanOut.width concurrency jobs = .ok width) :
    ∃ d, draftOf values (Cut.between n) = .ok d ∧
      compute (ofValues values) (fun x => .ok (text x)) field (.int n) concurrency =
        .ok ⟨field, d.stats, d.breaks, d.counted text values⟩ := by
  have draft := draftOf_eq values (Cut.between n)
  exact ⟨_, draft, compute_eq (p := ofValues values) (bucketCount_eq few many) draft
    (fun _ _ => rfl) wide text field⟩

/-! ### The buckets divide the values

The breaks are quantiles of the values at fractions that do not decrease, so they are sorted and lie
between the least value and the greatest one. There are as many as fractions, unless there are no
values at all. -/

/-- The buckets of a legend, as they are counted: with their bounds, of which only the last bucket
holds its upper one. -/
def ranges {β γ : Type} (l : Legend β γ) : List (Range β) :=
  Range.ofBoundaries (l.stats.least :: l.breaks ++ [l.stats.greatest])

/-- A legend divides values into `n` buckets, from the least value `lo` over breaks to the greatest
value `hi`. -/
structure Divides (l : Legend ℚ ℕ) (values : List ℚ) (n : ℕ) (lo hi : ℚ) (breaks : List ℚ) :
    Prop where
  least : l.stats.least = some lo
  greatest : l.stats.greatest = some hi
  least_mem : lo ∈ values
  greatest_mem : hi ∈ values
  within : ∀ x ∈ values, lo ≤ x ∧ x ≤ hi
  breaks_eq : l.breaks = breaks.map some
  length_breaks : breaks.length = n - 1
  breaks_sorted : breaks.Pairwise (· ≤ ·)
  breaks_within : ∀ b ∈ breaks, lo ≤ b ∧ b ≤ hi
  length_buckets : l.buckets.length = n
  /-- Each bucket starts where the one before it ends, the first one at the least value. -/
  lowers : l.buckets.map Bucket.least = (lo :: breaks).map some
  /-- The last bucket ends at the greatest value. -/
  uppers : l.buckets.map Bucket.greatest = (breaks ++ [hi]).map some
  counts : l.buckets.map Bucket.count = l.ranges.map fun r => values.countP r.holds
  /-- No value is lost or counted twice. -/
  once : ∀ x ∈ values, l.ranges.countP (fun r => r.holds x) = 1
  sum_counts : (l.buckets.map Bucket.count).sum = l.stats.count
  last : ∃ r, l.ranges.getLast? = some r ∧ ∀ x ∈ values, x = hi → r.holds x = true

theorem toRat_of_mem_between {n : ℕ} {c : Cut} (h : c ∈ Cut.between n) :
    0 ≤ c.toRat ∧ c.toRat ≤ 1 := by
  obtain ⟨i, hi, rfl⟩ := List.mem_map.1 h
  have hi : i < n - 1 := List.mem_range.1 hi
  have positive : (0 : ℚ) < n := by exact_mod_cast (by omega : 0 < n)
  rw [Cut.toRat, Rat.mkRat_eq_div]
  refine ⟨div_nonneg (by exact_mod_cast Nat.zero_le _) positive.le, (div_le_one positive).2 ?_⟩
  exact_mod_cast (by omega : i + 1 ≤ n)

theorem between_sorted (n : ℕ) : (Cut.between n).Pairwise fun c d => c.toRat ≤ d.toRat := by
  refine List.pairwise_map.2 (List.pairwise_lt_range.imp fun {i j} hij => ?_)
  rw [Cut.toRat, Cut.toRat, Rat.mkRat_eq_div, Rat.mkRat_eq_div]
  refine div_le_div_of_nonneg_right ?_ (Nat.cast_nonneg n)
  exact_mod_cast Nat.succ_le_succ hij.le

/-- The breaks of values do not decrease, and lie among them: for each break there is a value that
is at most it, and one that is at least it. -/
theorem exists_breaks {values : List ℚ} (h : values ≠ []) (n : ℕ) :
    ∃ breaks : List ℚ, ((Cut.between n).map fun c => quantile values c.toRat) = breaks.map some ∧
      breaks.length = n - 1 ∧ breaks.Pairwise (· ≤ ·) ∧
      ∀ b ∈ breaks, (∃ lo ∈ values, lo ≤ b) ∧ ∃ hi ∈ values, b ≤ hi := by
  have found {c : Cut} (hc : c ∈ Cut.between n) := quantile_within h (toRat_of_mem_between hc).1
    (toRat_of_mem_between hc).2
  refine ⟨(Cut.between n).map fun c => (quantile values c.toRat).getD 0, ?_, ?_, ?_, ?_⟩
  · rw [List.map_map]
    refine List.map_congr_left fun c hc => ?_
    obtain ⟨a, ha, -⟩ := found hc
    simp [ha]
  · simp [Cut.between]
  · refine List.pairwise_map.2 ((between_sorted n).imp_of_mem fun {c d} hc hd hcd => ?_)
    obtain ⟨a, b, ha, hb, hab⟩ := quantile_mono h (toRat_of_mem_between hc).1 hcd
      (toRat_of_mem_between hd).2
    simpa [ha, hb] using hab
  · intro b hb
    obtain ⟨c, hc, rfl⟩ := List.mem_map.1 hb
    obtain ⟨a, ha, within⟩ := found hc
    simpa [ha] using within

section Chained

variable {d : Draft ℚ ℕ} {lo hi : ℚ} {breaks : List ℚ}

theorem length_counted (chained : d.ranges = Range.chain lo breaks hi) (text : ℚ → String)
    (values : List ℚ) : (d.counted text values).length = breaks.length + 1 := by
  rw [Draft.counted, List.length_map, chained, Range.length_chain]

theorem map_least_counted (chained : d.ranges = Range.chain lo breaks hi) (text : ℚ → String)
    (values : List ℚ) : (d.counted text values).map Bucket.least = (lo :: breaks).map some := by
  rw [Draft.counted, List.map_map, chained]
  exact Range.map_lower_chain lo breaks hi

theorem map_greatest_counted (chained : d.ranges = Range.chain lo breaks hi) (text : ℚ → String)
    (values : List ℚ) :
    (d.counted text values).map Bucket.greatest = (breaks ++ [hi]).map some := by
  rw [Draft.counted, List.map_map, chained]
  exact Range.map_upper_chain lo breaks hi

theorem sum_counts_counted (chained : d.ranges = Range.chain lo breaks hi) (text : ℚ → String)
    {values : List ℚ} (sorted : breaks.Pairwise (· ≤ ·)) (within : ∀ x ∈ values, lo ≤ x ∧ x ≤ hi) :
    ((d.counted text values).map Bucket.count).sum = values.length := by
  rw [Draft.counted, List.map_map, chained]
  exact Range.sum_counts_chain sorted within

end Chained

/-- The legend of some values divides them. The breaks are quantiles and so in order, and every
value lies between the outer ones. -/
theorem divides_of_ofValues {values : List ℚ} (h : values ≠ []) {n : ℕ} (hn : 0 < n)
    {d : Draft ℚ ℕ} (hd : draftOf values (Cut.between n) = .ok d) (text : ℚ → String)
    (field : Value) :
    ∃ lo hi breaks,
      Divides ⟨field, d.stats, d.breaks, d.counted text values⟩ values n lo hi breaks := by
  obtain ⟨lo, hlo, lo_mem, below⟩ := Measure.exists_least h
  obtain ⟨hi, hhi, hi_mem, above⟩ := Measure.exists_greatest h
  obtain ⟨breaks, hbreaks, length, sorted, among⟩ := exists_breaks h n
  have within : ∀ x ∈ values, lo ≤ x ∧ x ≤ hi := fun x hx => ⟨below x hx, above x hx⟩
  have breaks_within : ∀ b ∈ breaks, lo ≤ b ∧ b ≤ hi := by
    intro b hb
    obtain ⟨⟨x, hx, hxb⟩, y, hy, hby⟩ := among b hb
    exact ⟨(below x hx).trans hxb, hby.trans (above y hy)⟩
  have kept : (breaks.map some).filter Option.isSome = breaks.map some :=
    List.filter_eq_self.2 fun b hb => by
      obtain ⟨x, -, rfl⟩ := List.mem_map.1 hb
      rfl
  rw [draftOf_eq, hbreaks, kept, hlo, hhi] at hd
  obtain rfl := Except.ok.inj hd
  have chained : Draft.ranges ⟨⟨some lo, some hi, quantile values Cut.middle.toRat,
      values.length⟩, breaks.map some⟩ = Range.chain lo breaks hi := rfl
  have highest : ∀ b ∈ lo :: breaks, b ≤ hi := by
    intro b hb
    obtain rfl | hb := List.mem_cons.1 hb
    · exact (within b lo_mem).2
    · exact (breaks_within b hb).2
  obtain ⟨r, hlast, hr⟩ := Range.last_chain highest
  exact ⟨lo, hi, breaks, {
    least := rfl, greatest := rfl, least_mem := lo_mem, greatest_mem := hi_mem, within
    breaks_eq := rfl, length_breaks := length, breaks_sorted := sorted, breaks_within
    length_buckets := by
      rw [length_counted chained, length]
      omega
    lowers := map_least_counted chained text values
    uppers := map_greatest_counted chained text values
    counts := by
      rw [Draft.counted, List.map_map]
      rfl
    once := fun x hx => Range.countP_holds_chain sorted (within x hx).1 (within x hx).2
    sum_counts := sum_counts_counted chained text sorted within
    last := ⟨r, hlast, fun x _ top => top ▸ hr⟩ }⟩

/-- Without values there is one bucket, and nothing in it. It has no bounds, and a label that says
so. -/
theorem counted_nil {d : Draft ℚ ℕ} {cuts : List Cut} (hd : draftOf [] cuts = .ok d)
    (text : ℚ → String) :
    d.breaks = [] ∧ d.counted text [] = [⟨none, none, "No data", 0⟩] := by
  have missing :
      ((cuts.map fun c => quantile ([] : List ℚ) c.toRat).filter Option.isSome) = [] := by
    simp [quantile_nil]
  rw [draftOf_eq, missing] at hd
  obtain rfl := Except.ok.inj hd
  exact ⟨rfl, rfl⟩

/-- **The legend of rows at hand divides the measured values of the rows within its scope.** It is
computed whatever the values are, and its number of values is that of the rows within the scope that
have one. If there is a value, the breaks and the buckets are those of a division into that many
parts, with sorted breaks from the least value to the greatest and every value in one bucket. If
there are none, it has no breaks and one bucket without bounds. -/
theorem compute_ofRows {s : Scope} {r : Relation} {field : Value} {c : Column}
    {rows : List Record} {n : ℕ} {concurrency : Value} (text : ℚ → String) (noBox : s.box = none)
    (hr : s.relation = .ok r) (hc : column r field = .ok c)
    (finite : ∀ v ∈ valuesWithin s c.name rows, v.rational?.isSome)
    (few : fewestBuckets ≤ n) (many : n ≤ mostBuckets)
    (wide : ∀ jobs, ∃ width, FanOut.width concurrency jobs = .ok width) :
    ∃ l, compute (ofRows ℚ s field rows) (fun x => .ok (text x)) field (.int n) concurrency =
        .ok l ∧
      l.stats.count = (rows.countP fun row => s.holds row && !(row.getD c.name).isNull) ∧
      (0 < l.stats.count →
        ∃ lo hi breaks, l.Divides (rationals s c.name rows) n lo hi breaks) ∧
      (l.stats.count = 0 → l.breaks = [] ∧ l.buckets = [⟨none, none, "No data", 0⟩]) := by
  rw [ofRows_eq (measured?_eq noBox hr hc finite), ← length_rationals finite]
  generalize rationals s c.name rows = values
  obtain ⟨d, hd, hcompute⟩ := compute_ofValues values text field few many wide
  have count : d.stats.count = values.length := by
    rw [draftOf_eq] at hd
    rw [← Except.ok.inj hd]
  refine ⟨_, hcompute, count, fun some_values => ?_, fun no_value => ?_⟩
  · have nonempty : values ≠ [] := List.length_pos_iff.1 (count ▸ some_values)
    exact divides_of_ofValues nonempty (lt_of_lt_of_le (by decide) few) hd text field
  · obtain rfl : values = [] := List.length_eq_zero_iff.1 (count ▸ no_value)
    exact counted_nil hd text

/-- Rows with three values, two of them equal: one row has none, and one is of another year. -/
def tiedRows : List Record :=
  [[("year", .int 2024), ("total_sales", .int 3)], [("year", .int 2024), ("total_sales", .null)],
    [("year", .int 2023), ("total_sales", .int 7)], [("year", .int 2024), ("total_sales", .int 1)],
    [("year", .int 2024), ("total_sales", .int 3)]]

/-- Four buckets for three values with a tie lose none of them. -/
theorem compute_tiedRows :
    ∃ l, compute (ofRows ℚ {} (.text "total_sales") tiedRows) (fun x => .ok (Numeral.ofRat x))
        (.text "total_sales") (.int 4) .null = .ok l ∧
      l.stats.count = 3 ∧ ∃ lo hi breaks, l.Divides [3, 1, 3] 4 lo hi breaks := by
  have available : column ⟨.rollup, .commune, .apartment, .year⟩ (.text "total_sales") =
      .ok ⟨"total_sales", .integer, false⟩ := rfl
  have finite : ∀ v ∈ valuesWithin {} "total_sales" tiedRows, v.rational?.isSome := by
    decide +kernel
  have wide : ∀ jobs, ∃ width, FanOut.width .null jobs = .ok width := fun _ => ⟨_, rfl⟩
  obtain ⟨l, hl, count, divides, -⟩ :=
    compute_ofRows (n := 4) Numeral.ofRat rfl rfl available finite
    (by decide) (by decide) wide
  exact ⟨l, hl, count, divides (by rw [count]; decide)⟩

end Legend

end PropertyMarket
