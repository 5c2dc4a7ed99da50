import PropertyMarket.Proofs.Compiled
import PropertyMarket.Proofs.Refusals
import PropertyMarket.Proofs.YearlyJoin
import PropertyMarket.Statement.Render

/-!
# What is computed of groups of sales

A query over the raw sales computes counts, sums, means and extremes of the columns of a group,
and prices by area. Null does not count for any of them. Prices and areas are decimals of two
places, and so are their sums, however many sales there are; so the cast of the sum of areas that
stands in the division does not round it. The guard in front of the division makes sure that the
sum is positive, but nothing makes sure that the sum has no more digits than the column of the
areas: from ten thousand million square metres on the cast is refused, although every single area
is less. That is the only way in which anything that is computed here can fail.

## Main definitions

* `Cell.HasType`, `Column.Admits` — a cell is one of a type, a column can hold it
* `Sale` — a row of the table of sales
* `Sale.held`, `Sale.numbers` — what a group holds in a column besides null
* `Aggregate.Describes` — what an aggregate has to be of some numbers

## Main results

* `Sale.cell_metric` — aggregates are those of the numbers that a group holds, or zero
* `Sale.cell_ratio` — prices by area, and exactly when they are refused
* `Sale.cell_ratio_number` — what they would be if the sum were cast to a decimal of any length
* `Sale.produced_of_group` — both of the terms that a request is compiled to

## Implementation notes

A sale has a cell under any name, and its row only gives those of the columns of the table. Of the
areas only the one that prices are divided by has to be no less than zero. A date is held as a
text; nothing but counts is computed of dates. Integers have no limit, so that a count is not
changed by its cast.
-/

namespace PropertyMarket

/-! ### Typed cells

A cell is one of the type of its column if the store would accept it there. For decimals this bounds
the number of places as well as the size, and both are used below. -/

/-- The kind of the numbers of a type. -/
def ColumnType.kind? : ColumnType → Option Cell.Kind
  | .integer => some .integer
  | .numeric _ _ | .number => some .exact
  | .float => some .double
  | .date | .varchar _ | .multiPolygon => none

namespace Cell

/-- The number of a cell. -/
def value? : Cell → Option ℚ
  | .number _ x => some x
  | _ => none

/-- The cell is one of a type. Of the digits of a decimal so many are places, and the others have to
have room in front of them. Null is of no type; whether it is allowed is said by the column. -/
def HasType : Cell → ColumnType → Prop
  | .number .integer x, .integer => ∃ n : ℤ, x = n
  | .number .exact x, .numeric digits places =>
    (∃ n : ℤ, x = n / 10 ^ places) ∧ |x| < 10 ^ ((digits : ℤ) - places)
  | .number .exact _, .number | .number .double _, .float => True
  | .text s, .varchar length => s.length ≤ length
  | .text _, .date | .text _, .multiPolygon => True
  | _, _ => False

variable {cell : Cell} {type : ColumnType} {kind : Kind}

theorem HasType.eq_number (h : cell.HasType type) (hk : type.kind? = some kind) :
    ∃ x, cell = .number kind x := by
  cases cell with
  | number k x =>
    refine ⟨x, ?_⟩
    cases k <;> cases type <;> simp_all [HasType, ColumnType.kind?]
  | null | truth b | text s => cases type <;> simp_all [HasType, ColumnType.kind?]

end Cell

/-! ### Sales

A group is any list of sales, the empty one included, and the number of sales in it has no limit.
What a group holds in a column is the list of the cells of its sales. -/

/-- The column can hold the cell: one of its type, or null if it may. A number has to fit the digits
and the places of the type. -/
def Column.Admits (c : Column) (cell : Cell) : Prop :=
  (c.nullable = true ∧ cell = .null) ∨ cell.HasType c.type

/-- A sale as it is stored: each column holds a cell that it can hold, and the floor area is not
negative. -/
structure Sale where
  cell : String → Cell
  typed : ∀ c ∈ Table.sales.columns, c.Admits (cell c.name)
  area_nonneg : ∀ x ∈ (cell "sbati").value?, 0 ≤ x

namespace Sale

/-- A sale as a row of its table. -/
def row (s : Sale) : StoredRow := fun name =>
  if (Table.sales.column? name).isSome then .ok (s.cell name) else .error (.unknownColumn name)

/-- A group of sales, as rows of the source of a query. -/
def group (sales : List Sale) : List Env :=
  sales.map fun s => Env.empty.extend Table.sales.name s.row

/-- What a group holds in a column besides null, in the order of the sales and with repetitions. -/
def held (sales : List Sale) (column : String) : List Cell := Cell.known (sales.map (·.cell column))

/-- The numbers that a group holds in a column, in the order of the sales and with repetitions. -/
def numbers (sales : List Sale) (column : String) : List ℚ :=
  sales.filterMap fun s => (s.cell column).value?

variable {sales : List Sale} {c : Column} {kind : Cell.Kind}

/-- A column of numbers holds nothing else besides null. -/
theorem held_eq_numbers (hc : c ∈ Table.sales.columns) (hk : c.type.kind? = some kind)
    (sales : List Sale) : held sales c.name = (numbers sales c.name).map (.number kind) := by
  induction sales with
  | nil => rfl
  | cons s sales ih =>
    rw [held] at ih
    rw [held, numbers, List.map_cons]
    obtain ⟨-, null⟩ | typed := s.typed c hc
    · rw [null, List.filterMap_cons_none (by rw [null]; rfl)]
      exact ih
    · obtain ⟨x, hx⟩ := typed.eq_number hk
      rw [hx, List.filterMap_cons_some (by rw [hx]; rfl), List.map_cons]
      exact congrArg _ ih

/-- An aggregate of a column is that of the cells that are not null. -/
theorem cell_aggregate (d : Dialect) (hc : Table.sales.column? c.name = some c)
    (function : Aggregate) (sales : List Sale) :
    (Term.aggregate function (.ofColumn .sales c)).cell d (group sales) =
      d.aggregate function (held sales c.name) := by
  have cells : ((group sales).mapM fun env => (Term.ofColumn .sales c).cell d [env]) =
      .ok (sales.map (·.cell c.name)) := by
    rw [group, List.mapM_map]
    refine Outcome.mapM_eq_ok_map fun s _ => ?_
    rw [Function.comp_apply, Term.ofColumn, Term.cell_column, Env.extend_self, row, hc]
    rfl
  rw [Term.cell_aggregate function cells, held, d.aggregate_known]

end Sale

/-! ### Aggregates

A count looks at which cells are not null, and all other aggregates at the numbers. Where there are
none, what is shown is zero in place of null. -/

/-- What an aggregate has to be of some numbers, of which there is at least one. -/
def Aggregate.Describes (xs : List ℚ) (x : ℚ) : Aggregate → Prop
  | .count => x = xs.length
  | .sum => x = xs.sum
  | .avg => x = xs.sum / xs.length
  | .min => x ∈ xs ∧ ∀ y ∈ xs, x ≤ y
  | .max => x ∈ xs ∧ ∀ y ∈ xs, y ≤ x

/-- An aggregate of some exact numbers. -/
theorem Dialect.aggregate_describes (d : Dialect) {kind : Cell.Kind} (exact : kind ≠ .double)
    (a : Aggregate) {xs : List ℚ} (h : xs ≠ []) :
    ∃ k x, d.aggregate a (xs.map (.number kind)) = .ok (.number k x) ∧ a.Describes xs x := by
  cases a with
  | count => exact ⟨_, _, d.aggregate_count kind xs, rfl⟩
  | sum => exact ⟨_, _, (d.aggregate_sum exact xs).trans (by rw [if_neg h]), rfl⟩
  | avg => exact ⟨_, _, (d.aggregate_avg exact xs).trans (by rw [if_neg h]), rfl⟩
  | min =>
    obtain ⟨lo, least, mem, below⟩ := Measure.exists_least h
    exact ⟨kind, lo, (d.aggregate_min kind xs).trans (by rw [least]; rfl), mem, below⟩
  | max =>
    obtain ⟨hi, greatest, mem, above⟩ := Measure.exists_greatest h
    exact ⟨kind, hi, (d.aggregate_max kind xs).trans (by rw [greatest]; rfl), mem, above⟩

/-- A number compared with zero. -/
theorem Dialect.test_gt_zero (d : Dialect) (kind : Cell.Kind) (x : ℚ) :
    d.test .gt (.number kind x) (.int 0) = .ok (.ofBool (decide (0 < x))) := by
  have compared : d.comparable (kind, x) (.integer, (0 : ℤ)) = (x, 0) := by
    cases kind <;> rfl
  have tested : d.test .gt (.number kind x) (.int 0) =
      .ok (.ofBool (Comparator.gt.accepts (compare x 0))) := by
    show Except.ok (Truth.ofBool (Comparator.gt.accepts
      (compare (d.comparable (kind, x) (.integer, (0 : ℤ))).1 _))) = _
    rw [compared]
  rw [tested]
  refine congrArg (fun b => Except.ok (Truth.ofBool b)) (Bool.eq_iff_iff.2 ?_)
  rw [decide_eq_true_iff]
  exact Comparator.accepts_compare .gt x 0

namespace Sale

variable (d : Dialect) {sales : List Sale} {c : Column} {kind : Cell.Kind}

/-- A count is that of the cells that are not null, whatever they are. -/
theorem cell_count (hc : Table.sales.column? c.name = some c) (sales : List Sale) :
    (Aggregate.count.term (.ofColumn .sales c)).cell d (group sales) =
      .ok (.int (held sales c.name).length) := by
  have counted : d.aggregate .count (held sales c.name) =
      .ok (.int (held sales c.name).length) := by
    rw [held, d.aggregate_known, Dialect.aggregate, List.countP_eq_length_filter]
    rfl
  have cell := cell_aggregate d hc .count sales
  rw [counted] at cell
  exact (Term.cell_cast .integer cell).trans (d.cast_int _)

/-- Any other aggregate is that of the numbers, or zero if there are none; it is a number in every
case. -/
theorem cell_metric (hc : Table.sales.column? c.name = some c) (hk : c.type.kind? = some kind)
    (exact : kind ≠ .double) {a : Aggregate} (measures : a ≠ .count) (sales : List Sale) :
    ∃ k x, (a.term (.ofColumn .sales c)).cell d (group sales) = .ok (.number k x) ∧
      (numbers sales c.name = [] → x = 0) ∧
      (numbers sales c.name ≠ [] → a.Describes (numbers sales c.name) x) := by
  have cell := cell_aggregate d hc a sales
  rw [held_eq_numbers (List.mem_of_find?_eq_some hc) hk] at cell
  have coalesced : a.term (.ofColumn .sales c) =
      .coalesce (.aggregate a (.ofColumn .sales c)) (.int 0) := by
    cases a <;> first | rfl | exact absurd rfl measures
  rw [coalesced]
  by_cases h : numbers sales c.name = []
  · have nothing : d.aggregate a [] = .ok .null := by
      cases a <;> first | rfl | exact absurd rfl measures
    rw [h, List.map_nil, nothing] at cell
    exact ⟨.integer, 0, Term.cell_coalesce cell, fun _ => rfl, absurd h⟩
  · obtain ⟨k, x, found, describes⟩ := d.aggregate_describes exact a h
    rw [found] at cell
    exact ⟨k, x, Term.cell_coalesce cell, fun none => absurd none h, fun _ => describes⟩

/-! ### Prices by area

The term for prices by area has a guard, a cast and a division. Where the guard fails the term is
null, and nothing is cast; where it holds the cast is made before the division. -/

/-- The column of the prices. -/
def price : Column := ⟨"valeurfonc", .numeric 14 2, true⟩

/-- The column of the areas that prices are divided by. -/
def area : Column := ⟨"sbati", .numeric 12 2, true⟩

/-- The prices of a group. -/
def prices (sales : List Sale) : List ℚ := numbers sales price.name

/-- The areas of a group. -/
def areas (sales : List Sale) : List ℚ := numbers sales area.name

/-- Prices by area, with the sum of the areas cast to a type. -/
def ratio (type : ColumnType) : Term :=
  Computation.ratio (.ofColumn .sales price) (.ofColumn .sales area) type

/-- The sum of some decimals, null if there are none. -/
def total (xs : List ℚ) : Cell := if xs = [] then .null else .number .exact xs.sum

theorem cell_total (hc : Table.sales.column? c.name = some c) (hk : c.type.kind? = some .exact)
    (sales : List Sale) :
    (Term.aggregate .sum (.ofColumn .sales c)).cell d (group sales) =
      .ok (total (numbers sales c.name)) := by
  rw [cell_aggregate d hc, held_eq_numbers (List.mem_of_find?_eq_some hc) hk,
    d.aggregate_sum (by decide), total]

theorem cell_prices (sales : List Sale) :
    (Term.aggregate .sum (.ofColumn .sales price)).cell d (group sales) =
      .ok (total (prices sales)) :=
  cell_total d rfl rfl sales

theorem cell_areas (sales : List Sale) :
    (Term.aggregate .sum (.ofColumn .sales area)).cell d (group sales) =
      .ok (total (areas sales)) :=
  cell_total d rfl rfl sales

/-- Areas have two places. -/
theorem exists_area_eq (sales : List Sale) : ∀ x ∈ areas sales, ∃ n : ℤ, x = n / 10 ^ 2 := by
  intro x hx
  obtain ⟨s, -, hs⟩ := List.mem_filterMap.1 hx
  obtain ⟨-, null⟩ | typed := s.typed area (by decide)
  · rw [null] at hs
    nomatch hs
  · obtain ⟨y, hy⟩ := typed.eq_number rfl
    rw [hy] at typed hs
    obtain rfl := Option.some.inj hs
    exact typed.1

/-- Sums of numbers of some places have no more places. -/
theorem exists_sum_eq {places : ℕ} {xs : List ℚ} (h : ∀ x ∈ xs, ∃ n : ℤ, x = n / 10 ^ places) :
    ∃ n : ℤ, xs.sum = n / 10 ^ places := by
  induction xs with
  | nil => exact ⟨0, by simp⟩
  | cons x xs ih =>
    obtain ⟨⟨n, hn⟩, rest⟩ := List.forall_mem_cons.1 h
    obtain ⟨m, hm⟩ := ih rest
    exact ⟨n + m, by rw [List.sum_cons, hn, hm, Int.cast_add, add_div]⟩

theorem sum_areas_nonneg (sales : List Sale) : 0 ≤ (areas sales).sum := by
  refine List.sum_nonneg fun x hx => ?_
  obtain ⟨s, -, hs⟩ := List.mem_filterMap.1 hx
  exact s.area_nonneg x hs

theorem areas_ne_nil (positive : 0 < (areas sales).sum) : areas sales ≠ [] := by
  rintro none
  rw [none] at positive
  exact lt_irrefl _ positive

/-- A cast of the sum of the areas to the type of an area does not change it, but is refused if
there is no room for it. The places are never the reason, since a sum of numbers of two places has
two places. -/
theorem cast_areas (some_area : areas sales ≠ []) :
    d.cast (total (areas sales)) area.type =
      if 10 ^ 10 ≤ (areas sales).sum then .error .outOfRange
      else .ok (.number .exact (areas sales).sum) := by
  have same : roundAway 2 (areas sales).sum = (areas sales).sum := by
    obtain ⟨n, hn⟩ := exists_sum_eq (exists_area_eq sales)
    rw [hn, roundAway_div_pow]
  have cast : d.cast (.number .exact (areas sales).sum) area.type =
      if |roundAway 2 (areas sales).sum| < 10 ^ ((12 : ℤ) - 2) then
        .ok (.number .exact (roundAway 2 (areas sales).sum)) else .error .outOfRange := rfl
  have room : (10 : ℚ) ^ ((12 : ℤ) - 2) = 10 ^ 10 := by norm_num
  rw [total, if_neg some_area, cast, same, abs_of_nonneg (sum_areas_nonneg sales), room]
  by_cases low : (areas sales).sum < 10 ^ 10
  · rw [if_pos low, if_neg (not_le.2 low)]
  · rw [if_neg low, if_pos (not_lt.1 low)]

/-- Without an area there is no price by area, and no cast. -/
theorem cell_ratio_of_sum_eq_zero (nothing : (areas sales).sum = 0) (type : ColumnType) :
    (ratio type).cell d (group sales) = .ok .null := by
  have zero : (Term.bound (.int 0)).cell d (group sales) = .ok (.int 0) := rfl
  have guard := Condition.truth_compare .gt (cell_areas d sales) zero
  have not_yes : ∃ truth, d.test .gt (total (areas sales)) (.int 0) = .ok truth ∧
      truth ≠ .yes := by
    rw [total]
    split
    · exact ⟨.unknown, d.test_null_left _ _, by decide⟩
    · exact ⟨_, d.test_gt_zero _ _, by rw [nothing]; decide⟩
  obtain ⟨truth, tested, not_yes⟩ := not_yes
  exact Term.cell_choice_no (guard.trans tested) not_yes

/-- With an area the sum of the prices is divided by what the sum of the areas is cast to. -/
theorem cell_ratio_of_sum_pos (positive : 0 < (areas sales).sum) (type : ColumnType) :
    (ratio type).cell d (group sales) =
      d.cast (total (areas sales)) type >>= d.arithmetic .div (total (prices sales)) := by
  have zero : (Term.bound (.int 0)).cell d (group sales) = .ok (.int 0) := rfl
  have guard := Condition.truth_compare .gt (cell_areas d sales) zero
  rw [total, if_neg (areas_ne_nil positive), d.test_gt_zero, decide_eq_true positive] at guard
  rw [ratio, Computation.ratio, Term.cell_choice_yes guard,
    Term.cell_arithmetic_left .div (cell_prices d sales), Term.cell_cast type (cell_areas d sales)]

theorem arithmetic_div_total {xs : List ℚ} {y : ℚ} (hy : y ≠ 0) :
    d.arithmetic .div (total xs) (.number .exact y) =
      .ok (if xs = [] then .null else .number .exact (xs.sum / y)) := by
  rw [total]
  split
  · rfl
  · exact d.arithmetic_div_exact hy

/-- **Prices by area.** They are null without an area or a price, and otherwise what they are
called; but a sum of areas that has more digits than an area is refused. -/
theorem cell_ratio (sales : List Sale) :
    (ratio area.type).cell d (group sales) =
      if (areas sales).sum = 0 then .ok .null
      else if 10 ^ 10 ≤ (areas sales).sum then .error .outOfRange
      else .ok (if prices sales = [] then .null
        else .number .exact ((prices sales).sum / (areas sales).sum)) := by
  obtain positive | nothing := (sum_areas_nonneg sales).lt_or_eq
  · have some_area := areas_ne_nil positive
    rw [cell_ratio_of_sum_pos d positive, cast_areas d some_area, if_neg positive.ne']
    split
    · rfl
    · exact arithmetic_div_total d positive.ne'
  · rw [cell_ratio_of_sum_eq_zero d nothing.symm, if_pos nothing.symm]

/-- Were the sum of the areas cast to a decimal of any length, nothing would be refused. -/
theorem cell_ratio_number (sales : List Sale) :
    (ratio .number).cell d (group sales) =
      .ok (if (areas sales).sum = 0 ∨ prices sales = [] then .null
        else .number .exact ((prices sales).sum / (areas sales).sum)) := by
  obtain positive | nothing := (sum_areas_nonneg sales).lt_or_eq
  · have some_area := areas_ne_nil positive
    rw [cell_ratio_of_sum_pos d positive, total, if_neg some_area]
    simp only [positive.ne', false_or]
    exact arithmetic_div_total d positive.ne'
  · rw [cell_ratio_of_sum_eq_zero d nothing.symm, if_pos (.inl nothing.symm)]

/-! ### What requests are compiled to

The terms above are those that a request is compiled to, for any aggregate of any field that allows
it and for prices by area. The text of the latter is given as it is rendered. -/

/-- Each field of a sale has a column, and a numeric one has a column of exact numbers. -/
theorem exists_column {f : Field} (hf : f ∈ Family.transactions.fields) :
    ∃ c, Table.sales.column? f.column = some c ∧
      (f.numeric = true → ∃ kind, c.type.kind? = some kind ∧ kind ≠ .double) := by
  have known : ∀ f ∈ Family.transactions.fields, (Table.sales.column? f.column).any (fun c =>
      !f.numeric || [some .integer, some .exact].contains c.type.kind?) = true := by
    decide +kernel
  obtain ⟨c, hc, shaped⟩ := (Option.any_eq_true ..).1 (known f hf)
  refine ⟨c, hc, fun numeric => ?_⟩
  rw [numeric, Bool.not_true, Bool.false_or, List.contains_iff_mem] at shaped
  obtain integer | exact := List.mem_pair.1 shaped
  · exact ⟨_, integer, by decide⟩
  · exact ⟨_, exact, by decide⟩

/-- An aggregate of a field of a sale is compiled, if the field is numeric or values are counted. -/
theorem compile_metric {a : Aggregate} {f : Field} (hf : f ∈ Family.transactions.fields)
    (hc : Table.sales.column? f.column = some c) (numeric : a ≠ .count → f.numeric = true) :
    MetricSpec.compile .sales .transactions ⟨Vocabulary.word a, f.name⟩ =
      .ok ⟨MetricSpec.label ⟨Vocabulary.word a, f.name⟩, a.term (.ofColumn .sales c)⟩ := by
  have found := Field.find?_eq_some_iff.2 ⟨hf, rfl⟩
  simp only [MetricSpec.compile, Vocabulary.ofWord?_word]
  split
  · rw [Field.onTable_eq_ok_iff.2 ⟨f, found, hc⟩]
    rfl
  · rename_i measures
    rw [Field.numericOnTable, Field.resolve_eq_ok_iff.2 found, Outcome.ok_bind,
      if_pos (numeric measures), Field.columnOn_eq_ok_iff.2 hc]
    rfl

theorem compile_ratio : Computation.pricePerArea.compile .sales .transactions =
    .ok ⟨"avgPricePerM2", ratio area.type⟩ := rfl

theorem text_ratio : Piece.join (Produced.output ⟨"avgPricePerM2", ratio area.type⟩).pieces =
    "CASE WHEN (sum(property_sales.sbati) > $1) THEN sum(property_sales.valeurfonc) / " ++
      "CAST(sum(property_sales.sbati) AS NUMERIC(12, 2)) END AS \"avgPricePerM2\"" := by
  decide +kernel

/-- **What is computed of a group of sales.** Prices by area are null if there is no area or no
price, and otherwise the sum of the prices over the sum of the areas; they are refused if and only
if the areas add up to more than a single one may be. A count is that of the cells that are not
null, and any other aggregate is that of the numbers, or zero if there are none. -/
theorem produced_of_group (sales : List Sale) :
    (∃ p, Computation.pricePerArea.compile .sales .transactions = .ok p ∧
      Piece.join p.output.pieces =
        "CASE WHEN (sum(property_sales.sbati) > $1) THEN sum(property_sales.valeurfonc) / " ++
          "CAST(sum(property_sales.sbati) AS NUMERIC(12, 2)) END AS \"avgPricePerM2\"" ∧
      (10 ^ 10 ≤ (areas sales).sum → p.term.cell d (group sales) = .error .outOfRange) ∧
      ((areas sales).sum < 10 ^ 10 → p.term.cell d (group sales) =
        .ok (if areas sales = [] ∨ (areas sales).sum = 0 ∨ prices sales = [] then .null
          else .number .exact ((prices sales).sum / (areas sales).sum)))) ∧
    (∀ f ∈ Family.transactions.fields, ∃ p,
      MetricSpec.compile .sales .transactions ⟨"count", f.name⟩ = .ok p ∧
      p.term.cell d (group sales) = .ok (.int (held sales f.column).length)) ∧
    ∀ a : Aggregate, a ≠ .count → ∀ f ∈ Family.transactions.fields, f.numeric = true → ∃ p k x,
      MetricSpec.compile .sales .transactions ⟨Vocabulary.word a, f.name⟩ = .ok p ∧
      p.term.cell d (group sales) = .ok (.number k x) ∧
      (numbers sales f.column = [] → x = 0) ∧
      (numbers sales f.column ≠ [] → a.Describes (numbers sales f.column) x) := by
  refine ⟨⟨_, compile_ratio, text_ratio, fun high => ?_, fun low => ?_⟩, fun f hf => ?_,
    fun a measures f hf numeric => ?_⟩
  · have positive : (areas sales).sum ≠ 0 := (lt_of_lt_of_le (by norm_num) high).ne'
    rw [cell_ratio, if_neg positive, if_pos high]
  · rw [cell_ratio, if_neg (not_le.2 low)]
    by_cases nothing : (areas sales).sum = 0
    · rw [if_pos nothing, if_pos (.inr (.inl nothing))]
    · have some_area : areas sales ≠ [] := by
        rintro none
        exact nothing (by rw [none, List.sum_nil])
      simp only [nothing, some_area, false_or, if_false]
  · obtain ⟨c, hc, -⟩ := exists_column hf
    have name := Table.name_of_column? hc
    rw [← name] at hc ⊢
    exact ⟨_, compile_metric hf (name ▸ hc) (absurd rfl), cell_count d hc sales⟩
  · obtain ⟨c, hc, exact⟩ := exists_column hf
    obtain ⟨kind, hk, exact⟩ := exact numeric
    have compiled := compile_metric (a := a) hf hc fun _ => numeric
    have name := Table.name_of_column? hc
    rw [← name] at hc ⊢
    obtain ⟨k, x, cell, describes⟩ := cell_metric d hc hk exact measures sales
    exact ⟨_, k, x, compiled, cell, describes⟩

/-! ### Two wide sales

Two sales of areas that are large but can be stored. Each of them alone has a price by area, and
together they have none. -/

/-- What is known of a sale of five thousand million square metres. -/
def wideCells : List (String × Cell) :=
  [("id", .int 1), ("datemut", .text "2024-03-01"), ("anneemut", .int 2024), ("moismut", .int 3),
    ("valeurfonc", .number .exact 1000000), ("sbati", .number .exact 5000000000)]

/-- A sale of five thousand million square metres. -/
def wide : Sale where
  cell name := (wideCells.lookup name).getD .null
  typed := by
    have shaped : ∀ c ∈ Table.sales.columns,
        (c.nullable = true ∧ (wideCells.lookup c.name).getD .null = .null) ∨
        c ∈ [⟨"id", .integer, false⟩, ⟨"datemut", .date, false⟩, ⟨"anneemut", .integer, false⟩,
          ⟨"moismut", .integer, false⟩, price, area] := by
      decide +kernel
    intro c hc
    refine (shaped c hc).imp_right fun known => ?_
    simp only [List.mem_cons, List.not_mem_nil, or_false] at known
    obtain rfl | rfl | rfl | rfl | rfl | rfl := known
    · exact ⟨1, rfl⟩
    · trivial
    · exact ⟨2024, rfl⟩
    · exact ⟨3, rfl⟩
    · exact ⟨⟨100000000, by norm_num⟩, by norm_num⟩
    · exact ⟨⟨500000000000, by norm_num⟩, by norm_num⟩
  area_nonneg := by
    intro x hx
    obtain rfl : (5000000000 : ℚ) = x := Option.some.inj hx
    norm_num

/-- One such sale has a price by area, but two of them have none. -/
theorem produced_of_wideSales : ∃ p,
    Computation.pricePerArea.compile .sales .transactions = .ok p ∧
    p.term.cell nearestBinary (group [wide]) = .ok (.number .exact (1 / 5000)) ∧
    p.term.cell nearestBinary (group [wide, wide]) = .error .outOfRange := by
  obtain ⟨⟨p, compiled, -, -, one⟩, -⟩ := produced_of_group nearestBinary [wide]
  obtain ⟨⟨p', compiled', -, two, -⟩, -⟩ := produced_of_group nearestBinary [wide, wide]
  obtain rfl := Except.ok.inj (compiled.symm.trans compiled')
  have area_one : areas [wide] = [5000000000] := rfl
  have price_one : prices [wide] = [1000000] := rfl
  have area_two : areas [wide, wide] = [5000000000, 5000000000] := rfl
  refine ⟨p, compiled, ?_, two (by rw [area_two]; norm_num)⟩
  rw [one (by rw [area_one]; norm_num), area_one, price_one]
  norm_num

end Sale

end PropertyMarket
