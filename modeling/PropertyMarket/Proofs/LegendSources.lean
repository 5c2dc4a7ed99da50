import PropertyMarket.Proofs.SignificantDigits

/-!
# Two sources of one legend

The statistics of a legend and the counts of its buckets come from statements that the store
answers, or are computed from rows at hand. On the same rows the two sources refuse the same fields,
and the statements select the rows whose values are collected at hand, so least, greatest and middle
value, their number and the breaks are the same. This needs that the store interpolates exactly, as
it is done at hand here, and nothing else.

The counts are another matter. A statement for a bucket compares what a value is *cast* to, and at
hand the value itself is compared. A column of integers is cast without loss, and then both sources
count the same in every bucket, with whatever bounds it has or lacks. A column in double precision
is cast to fifteen significant digits, and that is enough for integers only up to `10 ^ 15`. The
next one is cast to `10 ^ 15`, which is below the bucket that holds nothing but the value: at hand
the bucket has one value, and in the store it has none.

## The condition

Digits that are lost by the cast are all that can go wrong, and they always do. If no value loses
any, then a bound may still be sent as another number, but it stays on its side of all the values.
And if some integer does, then the bucket that holds only this integer tells the sources apart: it
holds no cast at all, since what has been cast would not be changed by casting it again.

## Main definitions

* `Legend.SameRefusal` — both sources refuse a field
* `Legend.SameStatistics` — both sources give the same statistics
* `Legend.Counts` — what the two sources count in a bucket
* `Legend.castCount`, `Legend.ownCount` — how many casts, and how many values, a bucket holds

## Main results

* `Legend.cells_collected` — what the store finds in the rows that a scope collects
* `Legend.castCount_eq_ownCount`, `Legend.exact_eq_of_castCount_eq` — the two halves of the
  condition
* `Legend.sources_agree_iff` — both sources refuse a field, or give the same statistics; what they
  count, and when that is the same

## Implementation notes

The bucket that tells the sources apart is closed and has an integer as both of its bounds, because
an integer is sent as it is. With a bound in double precision the same is true of integers below
`10 ^ 17`, but not in general. The condition is stated of integers, since a number with places may
be changed by the cast and by being sent in the same way, and is then counted where it belongs.
-/

namespace PropertyMarket

/-- A fraction as a cut. -/
def Cut.ofRat (f : ℚ) : Cut := ⟨f.num.toNat, f.den⟩

theorem Cut.toRat_ofRat {f : ℚ} (nonneg : 0 ≤ f) : (ofRat f).toRat = f := by
  have numerator : ((f.num.toNat : ℕ) : ℤ) = f.num := Int.toNat_of_nonneg (Rat.num_nonneg.2 nonneg)
  rw [toRat, ofRat, numerator, Rat.mkRat_self]

theorem Cut.toRat_middle : Cut.middle.toRat = 1 / 2 := by
  rw [toRat, middle, Rat.mkRat_eq_div]
  norm_num

namespace Legend

/-! ### What is collected

At hand the values within a scope are read as numbers, null apart. In the store the same rows are
selected, and the column is taken of each. Both are described by the list of the rational numbers
that the collected rows measure, and everything else is computed from that list. -/

/-- The number that a row measures; zero if it measures none. -/
def numberOf (column : String) (row : Record) : ℚ := (row.getD column).rational?.getD 0

section Collected

variable {d : Dialect} {kind : Cell.Kind} {s : Scope} {name : String} {rows : List Record}

theorem rational?_of_collects {row : Record} (content : Content kind name row)
    (collected : s.collects name row) :
    (row.getD name).rational? = some (numberOf name row) := by
  have present : (row.getD name).isNull = false := by
    simpa using (Bool.and_eq_true_iff.1 collected).2
  rw [content.measured.measured.valued.isNull_eq, Option.isNone_eq_false_iff] at present
  obtain ⟨q, hq⟩ := Option.isSome_iff_exists.1 present
  rw [numberOf, hq, Option.getD_some]

/-- What is measured at hand is what the collected rows measure. -/
theorem rationals_eq (content : ∀ row ∈ rows, Content kind name row) :
    rationals s name rows = (rows.filter (s.collects name)).map (numberOf name) := by
  rw [rationals, s.valuesWithin_eq, List.filterMap_map, List.filterMap_eq_map_iff_forall_eq_some]
  intro row hrow
  obtain ⟨mem, collected⟩ := List.mem_filter.1 hrow
  exact rational?_of_collects (content row mem) collected

theorem held_within (content : ∀ row ∈ rows, Content kind name row) :
    ∀ v ∈ valuesWithin s name rows, v.Held kind ∧ v.rational?.isSome := by
  intro v hv
  rw [s.valuesWithin_eq] at hv
  obtain ⟨row, hrow, rfl⟩ := List.mem_map.1 hv
  obtain ⟨mem, collected⟩ := List.mem_filter.1 hrow
  rw [rational?_of_collects (content row mem) collected]
  exact ⟨(content row mem).measured, rfl⟩

/-- A number that is measured is one that the column holds. -/
theorem exists_held (content : ∀ row ∈ rows, Content kind name row) {y : ℚ}
    (h : y ∈ rationals s name rows) : ∃ v : Value, v.Held kind ∧ v.rational? = some y := by
  obtain ⟨v, hv, hy⟩ := List.mem_filterMap.1 h
  exact ⟨v, (held_within content v hv).1, hy⟩

/-- What the store finds in collected rows are the numbers that they measure. -/
theorem cells_collected {metric : Term} {env : Record → Env}
    (cell : ∀ row, metric.cell d [env row] = Cell.ofValue (row.getD name))
    (content : ∀ row ∈ rows, Content kind name row)
    (collected : ∀ row ∈ rows, s.collects name row) :
    ((rows.map env).mapM fun e => metric.cell d [e]) =
      .ok ((rows.map (numberOf name)).map (Cell.number kind)) := by
  rw [List.mapM_map, List.map_map]
  refine Outcome.mapM_eq_ok_map fun row hrow => ?_
  rw [Function.comp_apply, cell, (content row hrow).measured.ofValue_eq,
    rational?_of_collects (content row hrow) (collected row hrow)]
  rfl

end Collected

/-! ### What the store shows

The statistics are aggregates of the selected cells, one term for each. As the cells are numbers of
one kind, each aggregate is the function of the list of numbers that is also computed at hand. -/

/-- Statistics as the store shows them. -/
def Stats.cells (kind : Cell.Kind) (s : Stats ℚ ℕ) : List (String × Cell) :=
  [("min", .ofNumber? kind s.least), ("max", .ofNumber? kind s.greatest),
    ("median", .ofNumber? .double s.median), ("count", .int s.count)]

/-- Breaks as the store shows them; one that is missing is null. -/
def breakCells (breaks : List (Option ℚ)) : List (String × Cell) :=
  breaks.mapIdx fun i b => (breakLabel i, .ofNumber? .double b)

section Shown

variable {d : Dialect} {kind : Cell.Kind} {metric : Term} {group : List Env} {values : List ℚ}

/-- A store that keeps what it interpolates gives the quantiles of a group of numbers. -/
theorem cell_percentile (interpolated : ∀ x, d.toDouble x = some x)
    (cells : (group.mapM fun env => metric.cell d [env]) = .ok (values.map (Cell.number kind)))
    {fraction : Value} {k : Cell.Kind} {f : ℚ} (hf : Cell.ofValue fraction = .ok (.number k f))
    (nonneg : 0 ≤ f) (le_one : f ≤ 1) :
    (Term.percentile fraction metric).cell d group =
      .ok (.ofNumber? .double (quantile values f)) := by
  rw [Term.cell_percentile hf cells]
  by_cases empty : values = []
  · have inside : ¬(f < 0 ∨ 1 < f) := not_or.2 ⟨not_lt.2 nonneg, not_lt.2 le_one⟩
    rw [empty, quantile_nil]
    exact if_neg inside
  · obtain ⟨x, hx, among⟩ := d.percentile_number k kind empty nonneg le_one
    rw [hx, among, Dialect.double, interpolated]
    rfl

theorem row_summaryOutputs (interpolated : ∀ x, d.toDouble x = some x)
    (cells : (group.mapM fun env => metric.cell d [env]) = .ok (values.map (Cell.number kind))) :
    Output.row d (DoubleColumn.summaryOutputs metric) group =
      .ok (Stats.cells kind ⟨Measure.least values, Measure.greatest values,
        quantile values Cut.middle.toRat, values.length⟩) := by
  have min := Term.cell_aggregate .min cells
  rw [Dialect.aggregate_min] at min
  have max := Term.cell_aggregate .max cells
  rw [Dialect.aggregate_max] at max
  have median := cell_percentile interpolated cells DoubleColumn.ofValue_middle (by norm_num)
    (by norm_num)
  have count := Term.cell_aggregate .count cells
  rw [Dialect.aggregate_count] at count
  have counted := (Term.cell_cast .integer count).trans (Dialect.cast_int d _)
  rw [Output.row, DoubleColumn.summaryOutputs, List.mapM_cons, min, List.mapM_cons, max,
    List.mapM_cons, median, List.mapM_cons, countOutput, Aggregate.term, counted, Cut.toRat_middle]
  rfl

theorem row_breakOutputs (interpolated : ∀ x, d.toDouble x = some x)
    (cells : (group.mapM fun env => metric.cell d [env]) = .ok (values.map (Cell.number kind)))
    {fractions : List Double}
    (inUnit : ∀ f ∈ fractions, f.isFinite ∧ 0 ≤ f.value ∧ f.value ≤ 1) :
    Output.row d (DoubleColumn.breakOutputs metric (fractions.map .double)) group =
      .ok (breakCells (fractions.map fun f => quantile values f.value)) := by
  rw [Output.row, DoubleColumn.breakOutputs, breakCells, List.mapIdx_eq_zipIdx_map,
    List.mapIdx_eq_zipIdx_map, List.zipIdx_map, List.zipIdx_map, List.map_map, List.map_map,
    List.mapM_map]
  refine Outcome.mapM_eq_ok_map fun p hp => ?_
  obtain ⟨finite, nonneg, le_one⟩ := inUnit p.1 (List.fst_mem_of_mem_zipIdx hp)
  have shown := cell_percentile interpolated cells (Cell.ofValue_double finite) nonneg le_one
  exact Outcome.bind_eq_ok_iff.2 ⟨_, shown, rfl⟩

end Shown

/-! ### Refused fields

A field is refused before any row is looked at, and by the same look-up on both sides. So not only
do both sources refuse it, they report the same fault. -/

/-- A field of which no legend is made is unknown. -/
theorem unknownField_of_column {r : Relation} {field : Value} {fault : Fault}
    (h : column r field = .error fault) :
    ∃ e, fault = .query e ∧ e.report.kind = .unknownField := by
  rw [column] at h
  cases found : Field.ofValue .rollup field with
  | error refused =>
    rw [found] at h
    obtain rfl := Except.error.inj h
    cases field with
    | text name =>
      rw [Field.ofValue, Field.resolve] at found
      split at found
      · cases found
      · exact ⟨_, (Except.error.inj found).symm, rfl⟩
    | _ => exact ⟨_, (Except.error.inj found).symm, rfl⟩
  | ok f =>
    rw [found, Outcome.ok_bind] at h
    split at h
    · rw [Field.columnOn] at h
      split at h
      · cases h
      · exact ⟨_, (Except.error.inj h).symm, rfl⟩
    · exact ⟨_, (Except.error.inj h).symm, rfl⟩

/-- Both sources refuse a field for the same reason, whatever is asked of it: neither the cuts nor
the bucket make a difference. -/
structure SameRefusal (s : Scope) (field : Value) (rows : List Record) (fault : Fault) : Prop where
  unknown : ∃ e, fault = .query e ∧ e.report.kind = .unknownField
  stats : ∀ fractions, statsStatement s field fractions = .error fault
  draft : ∀ cuts, (ofRows ℚ s field rows).draft cuts = .error fault
  counting : ∀ bucket, countStatement s field bucket = .error fault
  count : ∀ i bucket, (ofRows Number s field rows).count i bucket = .error fault

theorem measured?_eq_error {β : Type} [Measure β] {s : Scope} {field : Value} {fault : Fault}
    (plain : s.Plain) (h : column s.rollup field = .error fault) (rows : List Record) :
    measured? β s field rows = .error fault := by
  have unboxed : ¬s.box.isSome := by simp [plain.box]
  rw [measured?, if_neg unboxed, s.relation_eq, Outcome.ok_bind, h]
  rfl

theorem sameRefusal {s : Scope} {field : Value} {fault : Fault} (plain : s.Plain)
    (h : column s.rollup field = .error fault) (rows : List Record) :
    SameRefusal s field rows fault := by
  have selection : s.select field = .error fault := by
    rw [Scope.select, s.relation_eq, Outcome.ok_bind, h]
    rfl
  exact {
    unknown := unknownField_of_column h
    stats := fun fractions => by rw [statsStatement, selection]; rfl
    draft := fun cuts => by rw [ofRows, measured?_eq_error plain h]; rfl
    counting := fun bucket => by rw [countStatement, selection]; rfl
    count := fun i bucket => by rw [ofRows, measured?_eq_error plain h]; rfl }

/-! ### The same statistics, and counts

What is to be shown, put into structures: one for the statistics, which agree without any condition
on the numbers, and one for the counts of a bucket, which are two numbers that may differ. -/

/-- Both sources give the same statistics: one selects the rows that the other collects, and what
the one shows is the draft of the other. -/
structure SameStatistics (d : Dialect) (tables : Tables) (kind : Cell.Kind) (s : Scope)
    (field : Value) (column : String) (rows : List Record) (fractions : List Double)
    (statement : Statement) (draft : Draft ℚ ℕ) : Prop where
  statement_eq : statsStatement s field (fractions.map .double) = .ok statement
  envs_eq : statement.source.envs d tables = .ok (rows.map s.rollup.env)
  selected : Env.select d statement.conditions (rows.map s.rollup.env) =
    .ok ((rows.filter (s.collects column)).map s.rollup.env)
  collected : valuesWithin s column rows = (rows.filter (s.collects column)).map (·.getD column)
  draft_eq : (ofRows ℚ s field rows).draft (fractions.map fun f => .ofRat f.value) = .ok draft
  rows_eq : ∃ breaks, breaks.length = fractions.length ∧
    draft.breaks = breaks.filter Option.isSome ∧
    statement.rows d tables = .ok [draft.stats.cells kind ++ breakCells breaks]

/-- What the two sources count in a bucket: the store by the statement for it, and at hand both in
the kinds that the numbers have and in exact arithmetic. -/
structure Counts (d : Dialect) (tables : Tables) (s : Scope) (field : Value) (rows : List Record)
    (bucket : Range Number) (stored atHand : ℕ) : Prop where
  statement : ∃ counting, countStatement s field (bucket.map Number.toValue) = .ok counting ∧
    counting.rows d tables = .ok [[("count", .int stored)]]
  numbers : ∀ i, (ofRows Number s field rows).count i bucket = .ok atHand
  rationals : ∀ i, (ofRows ℚ s field rows).count i (bucket.map Number.value) = .ok atHand

/-- How many of the measured numbers a bucket holds. This is what is counted at hand. -/
def ownCount (s : Scope) (column : String) (rows : List Record) (bucket : Range Number) : ℕ :=
  (rationals s column rows).countP (bucket.map Number.value).holds

/-- How many of the measured numbers a bucket holds, if it is sent and they are cast. This is what
the store counts. -/
def castCount (d : Dialect) (kind : Cell.Kind) (s : Scope) (column : String) (rows : List Record)
    (bucket : Range Number) : ℕ :=
  (rationals s column rows).countP fun y =>
    (bucket.map (Number.asSent d)).holds (d.exact kind y)

/-- A statement has one answer and a provider has one count, so the two numbers are determined by
the bucket. -/
theorem Counts.unique {d : Dialect} {tables : Tables} {s : Scope} {field : Value}
    {rows : List Record} {bucket : Range Number} {m n m' n' : ℕ}
    (h : Counts d tables s field rows bucket m n) (h' : Counts d tables s field rows bucket m' n') :
    m = m' ∧ n = n' := by
  obtain ⟨counting, counting_eq, counted⟩ := h.statement
  obtain ⟨counting', counting_eq', counted'⟩ := h'.statement
  obtain rfl := Except.ok.inj (counting_eq.symm.trans counting_eq')
  have stored := Except.ok.inj (counted.symm.trans counted')
  have atHand := Except.ok.inj ((h.numbers 0).symm.trans (h'.numbers 0))
  refine ⟨?_, atHand⟩
  simpa [Cell.int] using stored

section Answers

variable {d : Dialect} {tables : Tables} {kind : Cell.Kind} {s : Scope} {field : Value} {c : Column}
  {rows : List Record}

/-- Numbers at hand are measured as they are. -/
theorem exists_numbers {values : List Value}
    (h : ∀ v ∈ values, v.Held kind ∧ v.rational?.isSome) :
    ∃ numbers, values.mapM Value.number? = some numbers ∧
      numbers.mapM (Measure.ofNumber (β := Number)) = .ok numbers ∧
      (∀ x ∈ numbers, x.toRat?.isSome) ∧
      numbers.map Number.value = values.filterMap Value.rational? := by
  induction values with
  | nil => exact ⟨[], rfl, rfl, by simp, rfl⟩
  | cons v values ih =>
    obtain ⟨⟨held, known⟩, rest⟩ := List.forall_mem_cons.1 h
    obtain ⟨numbers, read, measured, finite, same⟩ := ih rest
    obtain ⟨q, hq⟩ := Option.isSome_iff_exists.1 known
    obtain ⟨x, hx, hxq⟩ := Option.bind_eq_some_iff.1 hq
    have first : Measure.ofNumber (β := Number) x = .ok x := by
      cases held with
      | null => cases hx
      | int n => rw [← Option.some.inj hx]; rfl
      | double => rw [← Option.some.inj hx]; rfl
    refine ⟨x :: numbers, ?_, ?_, List.forall_mem_cons.2 ⟨by rw [hxq]; rfl, finite⟩, ?_⟩
    · rw [List.mapM_cons, hx, read]
      rfl
    · rw [List.mapM_cons, first, measured]
      rfl
    · rw [List.map_cons, List.filterMap_cons, hq, same, Number.value, hxq, Option.getD_some]

/-- A bucket holds the same numbers at hand, whether they are kept in their kinds or not. -/
theorem count_ofRows (plain : s.Plain) (hc : column s.rollup field = .ok c)
    (content : ∀ row ∈ rows, Content kind c.name row) {bucket : Range Number}
    (sendable : bucket.Sendable) (i : ℕ) :
    (ofRows Number s field rows).count i bucket = .ok (ownCount s c.name rows bucket) ∧
      (ofRows ℚ s field rows).count i (bucket.map Number.value) =
        .ok (ownCount s c.name rows bucket) := by
  obtain ⟨numbers, read, measured, known, same⟩ := exists_numbers (held_within content)
  constructor
  · rw [ofRows_eq (measured?_of_numbers plain.box s.relation_eq hc read measured), ownCount,
      rationals, ← same, List.countP_map]
    exact congrArg Except.ok (List.countP_congr fun x hx => by
      rw [Range.holds_eq sendable (known x hx), Function.comp_apply])
  · have finite : ∀ v ∈ valuesWithin s c.name rows, v.rational?.isSome :=
      fun v hv => (held_within content v hv).2
    rw [ofRows_eq (measured?_eq plain.box s.relation_eq hc finite)]
    rfl

/-- The draft at hand, in exact arithmetic. -/
theorem draft_ofRows (plain : s.Plain) (hc : column s.rollup field = .ok c)
    (content : ∀ row ∈ rows, Content kind c.name row) {fractions : List Double}
    (nonneg : ∀ f ∈ fractions, 0 ≤ f.value) :
    (ofRows ℚ s field rows).draft (fractions.map fun f => .ofRat f.value) =
      .ok ⟨⟨Measure.least (rationals s c.name rows), Measure.greatest (rationals s c.name rows),
        quantile (rationals s c.name rows) Cut.middle.toRat, (rationals s c.name rows).length⟩,
        (fractions.map fun f => quantile (rationals s c.name rows) f.value).filter
          Option.isSome⟩ := by
  have finite : ∀ v ∈ valuesWithin s c.name rows, v.rational?.isSome :=
    fun v hv => (held_within content v hv).2
  have cuts : ((fractions.map fun f => Cut.ofRat f.value).map fun cut =>
      quantile (rationals s c.name rows) cut.toRat) =
      fractions.map fun f => quantile (rationals s c.name rows) f.value := by
    rw [List.map_map]
    exact List.map_congr_left fun f hf => by rw [Function.comp_apply, Cut.toRat_ofRat (nonneg f hf)]
  rw [ofRows_eq (measured?_eq plain.box s.relation_eq hc finite), ← cuts]
  exact draftOf_eq _ _

/-! ### The answers of the store

The statement for the statistics and the statement for a bucket share what they select from. So it
is established once that the store keeps exactly the rows that the scope collects, and each
statement then only adds its own terms or conditions. -/

/-- What the statements of a scope select from, if its rollup holds some rows: their conditions hold
of the rows that the scope collects. -/
structure Selects (d : Dialect) (tables : Tables) (kind : Cell.Kind) (s : Scope) (field : Value)
    (column : String) (rows : List Record) (selection : Selection) : Prop where
  select_eq : s.select field = .ok selection
  envs_eq : selection.source.envs d tables = .ok (rows.map s.rollup.env)
  cell_eq : ∀ row, selection.metric.cell d [s.rollup.env row] = Cell.ofValue (row.getD column)
  content : ∀ row ∈ rows, Content kind column row
  holds : ∀ row ∈ rows, Condition.holdAll d selection.conditions (s.rollup.env row) =
    .ok (s.collects column row)

/-- A field that is not refused has a selection, which keeps the rows that the scope collects if the
rollup holds the rows at hand. -/
theorem exists_selects (plain : s.Plain) (hc : column s.rollup field = .ok c)
    (stored : tables s.rollup.name = rows.map s.rollup.table.stored)
    (content : ∀ row ∈ rows, Content kind c.name row) :
    ∃ selection, Selects d tables kind s field c.name rows selection := by
  obtain ⟨selection, select_eq, source_eq, metric_eq, holds⟩ := Scope.exists_select d kind plain hc
  refine ⟨selection, select_eq, ?_, fun row => ?_, content,
    fun row hrow => holds row (content row hrow)⟩
  · have envs : (Source.ofTable s.rollup.table).envs d tables =
        .ok ((tables s.rollup.name).map (Env.empty.extend s.rollup.name)) := rfl
    rw [source_eq, envs, stored, List.map_map]
    rfl
  · rw [metric_eq]
    exact Relation.cell_env (isSome_column? hc) d row

namespace Selects

variable {name : String} {selection : Selection}

theorem selected (h : Selects d tables kind s field name rows selection) :
    Env.select d selection.conditions (rows.map s.rollup.env) =
      .ok ((rows.filter (s.collects name)).map s.rollup.env) :=
  Env.select_map h.holds

/-- The statement for the statistics gives those of what is measured. -/
theorem exists_statistics (h : Selects d tables kind s field name rows selection)
    (interpolated : ∀ x, d.toDouble x = some x) {fractions : List Double}
    (inUnit : ∀ f ∈ fractions, f.isFinite ∧ 0 ≤ f.value ∧ f.value ≤ 1) :
    ∃ statement, statsStatement s field (fractions.map .double) = .ok statement ∧
      statement.source = selection.source ∧ statement.conditions = selection.conditions ∧
      statement.rows d tables = .ok [Stats.cells kind ⟨Measure.least (rationals s name rows),
        Measure.greatest (rationals s name rows),
        quantile (rationals s name rows) Cut.middle.toRat, (rationals s name rows).length⟩ ++
          breakCells (fractions.map fun f => quantile (rationals s name rows) f.value)] := by
  have cells := cells_collected h.cell_eq
    (fun row hrow => h.content row (List.mem_of_mem_filter hrow))
    fun row (hrow : row ∈ rows.filter (s.collects name)) => (List.mem_filter.1 hrow).2
  rw [← rationals_eq h.content] at cells
  refine ⟨_, by rw [statsStatement, h.select_eq, Outcome.ok_bind]; rfl, rfl, rfl, ?_⟩
  exact Query.rows_computed h.envs_eq h.selected rfl rfl
    (Outcome.mapM_append_eq_ok (row_summaryOutputs interpolated cells)
      (row_breakOutputs interpolated cells inUnit))

/-- The rows that the statement of a bucket selects are those that measure what the bucket holds. -/
theorem map_numberOf_inBucket (content : ∀ row ∈ rows, Content kind name row) (holds : ℚ → Bool)
    (unbounded : Bool) :
    (rows.filter fun row => s.collects name row &&
        (row.getD name).rational?.elim unbounded holds).map (numberOf name) =
      (rationals s name rows).filter holds := by
  rw [rationals_eq content, List.filter_map, List.filter_filter]
  refine congrArg _ (List.filter_congr fun row hrow => ?_)
  cases collected : s.collects name row with
  | false => rw [Bool.false_and, Bool.and_false]
  | true =>
    rw [rational?_of_collects (content row hrow) collected, Bool.true_and, Bool.and_true]
    rfl

/-- The statement for a bucket gives the number of values of which the bucket, as it is sent, holds
the cast. -/
theorem exists_counting (h : Selects d tables kind s field name rows selection)
    {bucket : Range Number} (sendable : bucket.Sendable) :
    ∃ counting, countStatement s field (bucket.map Number.toValue) = .ok counting ∧
      counting.rows d tables = .ok [[("count", .int (castCount d kind s name rows bucket))]] := by
  obtain ⟨bounds, hbounds, inBucket⟩ := Range.exists_conditions d sendable selection.metric
  let keeps (row : Record) : Bool := s.collects name row &&
    (row.getD name).rational?.elim (bucket.lower.isNone && bucket.upper.isNone)
      fun y => (bucket.map (Number.asSent d)).holds (d.exact kind y)
  have kept : Env.select d (selection.conditions ++ bounds) (rows.map s.rollup.env) =
      .ok ((rows.filter keeps).map s.rollup.env) :=
    Env.select_map fun row hrow => Condition.holdAll_append (h.holds row hrow)
      (inBucket kind _ _ ((h.cell_eq row).trans (h.content row hrow).measured.ofValue_eq))
  have cells := cells_collected h.cell_eq
    (fun row hrow => h.content row (List.mem_of_mem_filter hrow))
    fun row (hrow : row ∈ rows.filter keeps) =>
      (Bool.and_eq_true_iff.1 (List.mem_filter.1 hrow).2).1
  rw [map_numberOf_inBucket h.content] at cells
  have count := Term.cell_aggregate .count cells
  rw [Dialect.aggregate_count, ← List.countP_eq_length_filter] at count
  have counted := (Term.cell_cast .integer count).trans (Dialect.cast_int d _)
  refine ⟨_, by rw [countStatement, h.select_eq, Outcome.ok_bind, hbounds, Outcome.ok_bind]; rfl,
    Query.rows_computed h.envs_eq kept rfl rfl ?_⟩
  rw [Output.row, List.mapM_cons, countOutput, Aggregate.term, counted]
  rfl

/-- What the two sources count. -/
theorem counts (h : Selects d tables kind s field c.name rows selection) (plain : s.Plain)
    (hc : column s.rollup field = .ok c) {bucket : Range Number} (sendable : bucket.Sendable) :
    Counts d tables s field rows bucket (castCount d kind s c.name rows bucket)
      (ownCount s c.name rows bucket) where
  statement := h.exists_counting sendable
  numbers i := (count_ofRows plain hc h.content sendable i).1
  rationals i := (count_ofRows plain hc h.content sendable i).2

end Selects

/-! ### Where the counts agree

A value that the cast does not change is in a bucket for the one source exactly if it is for the
other, whatever the bounds. A value that it changes is lost to the store in the bucket that holds
nothing else: no other value is cast to it, since what has been cast has few digits. -/

/-- The bucket that holds one integer. -/
def pointBucket (n : ℤ) : Range Number := ⟨some (.int n), some (.int n), true⟩

theorem sendable_pointBucket (n : ℤ) : (pointBucket n).Sendable :=
  ⟨fun _ hx => Option.some.inj hx ▸ .int n, fun _ hx => Option.some.inj hx ▸ .int n⟩

theorem holds_pointBucket {f : Number → ℚ} {n : ℤ} (same : f (.int n) = n) {y : ℚ} :
    ((pointBucket n).map f).holds y = true ↔ y = n := by
  have closed : ((pointBucket n).map f).holds y = true ↔ f (.int n) ≤ y ∧ y ≤ f (.int n) :=
    Range.holds_closed (β := ℚ)
  rw [closed, same, le_antisymm_iff]
  exact and_comm

variable {bucket : Range Number}

/-- Where the cast keeps what is measured, both sources count the same in every bucket whose bounds
are sent as they are. -/
theorem castCount_eq_ownCount (cast : d.toExact = significant 15) (sent : d.sent = significant 17)
    (content : ∀ row ∈ rows, Content kind c.name row)
    (kept : ∀ y ∈ rationals s c.name rows, d.exact kind y = y) (sendable : bucket.Sendable) :
    castCount d kind s c.name rows bucket = ownCount s c.name rows bucket := by
  refine List.countP_congr fun y hy => ?_
  obtain ⟨v, held, hv⟩ := exists_held content hy
  have compared {x : Number} (hx : x.Sendable) : compare y (x.asSent d) = compare y x.value :=
    hx.compare_asSent sent (held.fewBits hv) (held.significant_eq cast hv (kept y hy))
  rw [kept y hy, Range.holds_map_congr (fun x hx => compared (sendable.lower x hx))
    fun x hx => compared (sendable.upper x hx)]

/-- Where both sources count the same around an integer that is measured, the cast keeps it. -/
theorem exact_eq_of_castCount_eq (cast : d.toExact = significant 15) {n : ℤ}
    (measured : (n : ℚ) ∈ rationals s c.name rows)
    (same : castCount d kind s c.name rows (pointBucket n) =
      ownCount s c.name rows (pointBucket n)) :
    d.exact kind n = n := by
  have found : 0 < ownCount s c.name rows (pointBucket n) :=
    List.countP_pos_iff.2 ⟨n, measured, (holds_pointBucket (Number.value_int n)).2 rfl⟩
  rw [← same] at found
  obtain ⟨y, -, hy⟩ := List.countP_pos_iff.1 found
  have onto : d.exact kind y = n := (holds_pointBucket (Number.value_int n)).1 hy
  rw [Dialect.exact] at onto ⊢
  split at onto
  · rw [if_pos ‹_›, cast, ← onto, cast, significant_significant (by decide)]
  · rw [if_neg ‹_›]

/-- **The store and the rows at hand are sources of the same legend, but for what a cast changes.**

They refuse the same fields, and the statistics are the same. In a bucket the store counts the
values whose cast is in the bucket as it is sent, while at hand those are counted that are in it
themselves. If integers are measured, these counts agree in every bucket exactly if no value has
more digits than a cast leaves; in a column of integers none is cast, so there they do. -/
theorem sources_agree_iff (interpolated : ∀ x, d.toDouble x = some x)
    (cast : d.toExact = significant 15) (sent : d.sent = significant 17) (plain : s.Plain)
    (field : Value) (stored : tables s.rollup.name = rows.map s.rollup.table.stored)
    {fractions : List Double} (inUnit : ∀ f ∈ fractions, f.isFinite ∧ 0 ≤ f.value ∧ f.value ≤ 1) :
    (∀ fault, column s.rollup field = .error fault → SameRefusal s field rows fault) ∧
    ∀ c, column s.rollup field = .ok c → ∀ kind, (∀ row ∈ rows, Content kind c.name row) →
      (∃ statement draft,
        SameStatistics d tables kind s field c.name rows fractions statement draft) ∧
      (∀ bucket : Range Number, bucket.Sendable → Counts d tables s field rows bucket
        (castCount d kind s c.name rows bucket) (ownCount s c.name rows bucket)) ∧
      ((∀ y ∈ rationals s c.name rows, ∃ n : ℤ, y = n) →
        ((∀ bucket : Range Number, bucket.Sendable →
            ∃ n, Counts d tables s field rows bucket n n) ↔
          (kind = .double → ∀ y ∈ rationals s c.name rows, significant 15 y = y))) := by
  refine ⟨fun fault h => sameRefusal plain h rows, fun c hc kind content => ?_⟩
  obtain ⟨selection, h⟩ := exists_selects plain hc stored content
  obtain ⟨statement, statement_eq, source_eq, conditions_eq, rows_eq⟩ :=
    h.exists_statistics interpolated inUnit
  have counts {bucket : Range Number} (sendable : bucket.Sendable) := h.counts plain hc sendable
  refine ⟨⟨statement, _, {
    statement_eq
    envs_eq := source_eq ▸ h.envs_eq
    selected := conditions_eq ▸ h.selected
    collected := s.valuesWithin_eq c.name rows
    draft_eq := draft_ofRows plain hc content fun f hf => (inUnit f hf).2.1
    rows_eq := ⟨_, List.length_map _, rfl, rows_eq⟩ }⟩,
    fun bucket sendable => counts sendable, fun whole => ⟨fun all double y hy => ?_, fun few => ?_⟩⟩
  · obtain ⟨n, rfl⟩ := whole y hy
    obtain ⟨k, same⟩ := all _ (sendable_pointBucket n)
    obtain ⟨stored, atHand⟩ := (counts (sendable_pointBucket n)).unique same
    have kept := exact_eq_of_castCount_eq cast hy (stored.trans atHand.symm)
    rwa [Dialect.exact, if_pos double, cast] at kept
  · have kept : ∀ y ∈ rationals s c.name rows, d.exact kind y = y := by
      intro y hy
      rw [Dialect.exact]
      split
      · rw [cast, few ‹_› y hy]
      · rfl
    intro bucket sendable
    have same := castCount_eq_ownCount cast sent content kept sendable
    exact ⟨_, same ▸ counts sendable⟩

end Answers

/-! ### A commune in a month

Sales of a few sections, to see the result at work: counts of sales, which both sources count alike,
and one average price of sixteen digits, which they do not. -/

/-- A store that casts to fifteen digits and sends seventeen, and interpolates exactly. -/
def exactStore : Dialect := { Dialect.fifteenDigits with toDouble := some }

/-- The sections of a commune, in March. -/
def sectionsInMarch : Scope where
  level := .cadastral
  year := .int 2024
  month := .int 3
  inseeCode := .text "75112"

/-- What is known of the sales of a section of a commune in a month: how many there are, and their
price on average. -/
def monthlySales (code : String) (month : ℤ) (sales : Option ℤ) (price : Option Double) : Record :=
  [("insee_code", .text code), ("year", .int 2024), ("month", .int month),
    ("total_sales", .ofInt? sales), ("avg_price", price.elim .null .double)]

section MonthlySales

variable {code : String} {month : ℤ} {sales : Option ℤ} {price : Option Double}

theorem content_sales (few : ∀ n ∈ sales, |(n : ℚ)| ≤ 2 ^ 53) :
    Content .integer "total_sales" (monthlySales code month sales price) where
  year := ⟨some 2024, rfl⟩
  month := ⟨some month, rfl⟩
  code := ⟨some code, rfl⟩
  measured := by
    cases sales with
    | none => exact .null _
    | some n => exact .int n (few n rfl)

theorem content_price (normal : ∀ x ∈ price, x.isFinite = true ∧ x.IsNormal) :
    Content .double "avg_price" (monthlySales code month sales price) where
  year := ⟨some 2024, rfl⟩
  month := ⟨some month, rfl⟩
  code := ⟨some code, rfl⟩
  measured := by
    cases price with
    | none => exact .null _
    | some x => exact .double (normal x rfl).1 (normal x rfl).2

end MonthlySales

/-- One more than a million billions, which takes sixteen digits. -/
def sixteenDigits : Double := .finite false (8 * (10 ^ 15 + 1)) (-3)

theorem isNormal_sixteenDigits : sixteenDigits.IsNormal :=
  ⟨by decide, by decide, by decide, .inr (by decide)⟩

/-- Two sections with sales, of which one has an average price; one without; one of another commune;
and one in another month. -/
def salesInMarch : List Record :=
  [monthlySales "75112" 3 (some 2) (some sixteenDigits), monthlySales "75112" 3 none none,
    monthlySales "75113" 3 (some 9) none, monthlySales "75112" 3 (some 3) none,
    monthlySales "75112" 4 (some 1) none]

/-- Of the sales both sources make the same legend, and of the names of the sections they make none.
The average price is counted at hand in the bucket that holds only it, and by the store it is not:
there it is cast to a million billions. -/
theorem sources_agree_iff_salesInMarch :
    let tables : Tables := fun _ => salesInMarch.map sectionsInMarch.rollup.table.stored
    (∃ statement draft, SameStatistics exactStore tables .integer sectionsInMarch
      (.text "total_sales") "total_sales" salesInMarch [.finite false (2 ^ 52) (-53)] statement
      draft) ∧
    (∀ bucket : Range Number, bucket.Sendable →
      ∃ n, Counts exactStore tables sectionsInMarch (.text "total_sales") salesInMarch bucket n n) ∧
    Counts exactStore tables sectionsInMarch (.text "avg_price") salesInMarch
      ⟨some (.double sixteenDigits), some (.double sixteenDigits), true⟩ 0 1 ∧
    ∃ fault, SameRefusal sectionsInMarch (.text "section") salesInMarch fault := by
  intro tables
  have plain : sectionsInMarch.Plain :=
    ⟨rfl, ⟨2024, rfl⟩, ⟨some 3, rfl⟩, ⟨some "75112", rfl⟩⟩
  have inUnit : ∀ f ∈ [Double.finite false (2 ^ 52) (-53)],
      f.isFinite ∧ 0 ≤ f.value ∧ f.value ≤ 1 := by
    intro f hf
    obtain rfl := List.mem_singleton.1 hf
    rw [Double.value_finite]
    norm_num [Double.isFinite]
  have interpolated : ∀ x, exactStore.toDouble x = some x := fun _ => rfl
  have stored : tables sectionsInMarch.rollup.name =
      salesInMarch.map sectionsInMarch.rollup.table.stored := rfl
  have agree (field : Value) := sources_agree_iff interpolated rfl rfl plain field stored inUnit
  have sales : column sectionsInMarch.rollup (.text "total_sales") =
      .ok ⟨"total_sales", .integer, false⟩ := rfl
  have prices : column sectionsInMarch.rollup (.text "avg_price") =
      .ok ⟨"avg_price", .float, false⟩ := rfl
  have salesContent : ∀ row ∈ salesInMarch, Content .integer "total_sales" row := by
    simp only [salesInMarch, List.forall_mem_cons, List.not_mem_nil]
    refine ⟨?_, ?_, ?_, ?_, ?_, fun _ h => h.elim⟩ <;> refine content_sales ?_ <;> simp <;> norm_num
  have priceContent : ∀ row ∈ salesInMarch, Content .double "avg_price" row := by
    have normal : ∀ x ∈ some sixteenDigits, x.isFinite = true ∧ x.IsNormal :=
      fun x hx => Option.some.inj hx ▸ ⟨rfl, isNormal_sixteenDigits⟩
    simp only [salesInMarch, List.forall_mem_cons, List.not_mem_nil]
    refine ⟨content_price normal, ?_, ?_, ?_, ?_, fun _ h => h.elim⟩ <;>
      exact content_price (by simp)
  obtain ⟨statistics, -, counts⟩ := (agree _).2 _ sales _ salesContent
  have measured : rationals sectionsInMarch "total_sales" salesInMarch = [2, 3] := by
    decide +kernel
  have whole : ∀ y ∈ rationals sectionsInMarch "total_sales" salesInMarch, ∃ n : ℤ, y = n := by
    rw [measured]
    simp only [List.forall_mem_cons, List.not_mem_nil]
    exact ⟨⟨2, rfl⟩, ⟨3, rfl⟩, fun _ h => h.elim⟩
  obtain ⟨-, price, -⟩ := (agree _).2 _ prices _ priceContent
  have sendable : (Range.mk (some (Number.double sixteenDigits))
      (some (Number.double sixteenDigits)) true).Sendable :=
    have bound : (Number.double sixteenDigits).Sendable := .double rfl isNormal_sixteenDigits
    ⟨fun _ h => Option.some.inj h ▸ bound, fun _ h => Option.some.inj h ▸ bound⟩
  have lost : castCount exactStore .double sectionsInMarch "avg_price" salesInMarch
      ⟨some (.double sixteenDigits), some (.double sixteenDigits), true⟩ = 0 := by decide +kernel
  have found : ownCount sectionsInMarch "avg_price" salesInMarch
      ⟨some (.double sixteenDigits), some (.double sixteenDigits), true⟩ = 1 := by decide +kernel
  have differ := price _ sendable
  rw [lost, found] at differ
  have same := (counts whole).2 fun double => absurd double (by decide)
  exact ⟨statistics, same, differ, _, (agree _).1 _ rfl⟩

end Legend

end PropertyMarket
