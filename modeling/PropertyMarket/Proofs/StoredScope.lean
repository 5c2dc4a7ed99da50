import PropertyMarket.Legend.Statement
import PropertyMarket.Proofs.Availability
import PropertyMarket.Proofs.MemoryLegend
import PropertyMarket.Proofs.Meaning
import PropertyMarket.Proofs.Regression
import PropertyMarket.Proofs.ShortestDigits
import PropertyMarket.Proofs.StoredLegend

/-!
# The scope of a legend, asked twice

Which rows a legend is made of is written down twice: as the conditions of a statement, and as a
test of rows at hand. So is which values a bucket holds. The two ways differ in what they do with
null, of which a comparison is unknown in the store and false at hand, and with bounds, which are
left out of a statement where they are missing.

Here rows at hand are taken as the rows of a table, in which a missing value is null, and both
questions are shown to have one answer, row by row.

## Main definitions

* `Table.stored` — a row at hand as a row of a table
* `Value.Held` — a value as a column of numbers holds it
* `Legend.Scope.Plain` — a scope whose parts are of the kinds that a rollup holds
* `Legend.Content` — a row whose parts are, too
* `Legend.Scope.collects` — does a row within the scope measure something?
* `Number.asSent` — the number that the store compares with for a bound
* `Number.Sendable`, `Range.Sendable` — bounds that can be sent, and a bucket with such

## Main results

* `Legend.Scope.exists_select` — the conditions of a scope hold of the rows that it collects
* `Range.exists_conditions` — the conditions of a bucket hold of a number if the bucket, as it is
  sent, holds what the number is cast to
* `Range.holds_eq` — at hand a bucket holds a number by what the two denote

## Implementation notes

The two questions about a scope have one answer, and that is proved here. The two about a bucket do
not: the store casts what it compares and is sent what it compares with, and either may lose digits.
So the answers are given side by side, the one with `Dialect.exact` and `Number.asSent` and the
other without, and where they meet is left to those who know how a store casts.
-/

namespace PropertyMarket

/-! ### Rows of a table

A row at hand need not have all columns of its relation, and may have others. As a row of the table
it has exactly the columns of the table, with null for those that it lacks. -/

/-- A row at hand as a row of a table: what it lacks is null. A column that the table has not is
refused. -/
def Table.stored (t : Table) (row : Record) : StoredRow := fun name =>
  if (t.column? name).isSome then Cell.ofValue (row.getD name) else .error (.unknownColumn name)

/-- The rows of a relation, as rows of the source of a statement. -/
def Relation.env (r : Relation) (row : Record) : Env := Env.empty.extend r.name (r.table.stored row)

theorem Relation.cell_env {r : Relation} {name : String} (h : (r.table.column? name).isSome)
    (d : Dialect) (row : Record) :
    (Term.column r.name name).cell d [r.env row] = Cell.ofValue (row.getD name) := by
  rw [Term.cell_column, Relation.env, Env.extend_self, Table.stored, if_pos h]

theorem Relation.isSome_column?_key {r : Relation} (rollup : r.family = .rollup) {c : Column}
    (h : c ∈ locationColumns r.level ++ periodColumns r.grain) :
    (r.table.column? c.name).isSome := by
  have among : c ∈ r.table.columns := by
    show c ∈ r.columns
    rw [columns, rollup]
    simp only [List.mem_append] at h ⊢
    exact h.imp_right .inl
  exact List.find?_isSome.2 ⟨c, among, beq_self_eq_true _⟩

/-! ### Equality

A scope compares its parts with columns by equality. The store leaves it unknown whether null is
equal to something, and at hand it is not; either way the row is not kept. -/

/-- Null, or a value that is like another one. -/
def Value.Comparable (v w : Value) : Prop := v = .null ∨ v.Alike w

/-- A column is the same as a text or an integer in the store exactly if it is the same at hand:
there null is not the same, here it is not known to be. -/
theorem Condition.holdAll_equals {d : Dialect} {v w : Value} (key : w.Alike w)
    (h : v.Comparable w) {term : Term} {env : Env} (cell : term.cell d [env] = Cell.ofValue v) :
    holdAll d [equals term w] env = .ok (v.same w) := by
  obtain rfl | alike := h
  · cases key with
    | texts s =>
      have asked : (equals term (.text s)).truth d [env] = .ok .unknown :=
        (truth_compare .eq cell rfl).trans (d.test_null_left .eq _)
      exact holdAll_singleton asked
    | ints n =>
      have asked : (equals term (.int n)).truth d [env] = .ok .unknown :=
        (truth_compare .eq cell rfl).trans (d.test_null_left .eq _)
      exact holdAll_singleton asked
  · have same := alike.same_iff
    cases alike with
    | texts s t =>
      have asked : (equals term (.text t)).truth d [env] = .ok (.ofBool (decide (s = t))) :=
        (truth_compare .eq cell rfl).trans (d.test_text_eq s t)
      rw [holdAll_singleton asked]
      refine congrArg Except.ok (Bool.eq_iff_iff.2 ?_)
      rw [same, decide_eq_true_iff, Truth.ofBool_eq_yes, decide_eq_true_iff, Value.text.injEq]
    | ints m n =>
      have asked : (equals term (.int n)).truth d [env] = .ok (.ofBool (decide (m = n))) :=
        (truth_compare .eq cell rfl).trans (d.test_int_eq m n)
      rw [holdAll_singleton asked]
      refine congrArg Except.ok (Bool.eq_iff_iff.2 ?_)
      rw [same, decide_eq_true_iff, Truth.ofBool_eq_yes, decide_eq_true_iff, Value.int.injEq]

/-- The same of a condition that is left out where there is nothing to compare with. -/
theorem Condition.holdAll_equals? {d : Dialect} {v : Value} {part : Option Value} {term : Term}
    {env : Env} (h : ∀ w ∈ part, w.Alike w ∧ v.Comparable w ∧
      term.cell d [env] = Cell.ofValue v) :
    holdAll d (part.map (equals term)).toList env = .ok (part.all fun w => v.same w) := by
  cases part with
  | none => rfl
  | some w =>
    obtain ⟨key, comparable, cell⟩ := h w rfl
    exact holdAll_equals key comparable cell

/-! ### What is measured

The kinds of numbers that a column holds, with what is known of each of them. The columns of metrics
are of integers or in double precision. -/

/-- The number of a kind that is given, or null. -/
def Cell.ofNumber? (kind : Cell.Kind) (x : Option ℚ) : Cell := x.elim .null (.number kind)

/-- A value as a column of a kind of numbers holds it: null, an integer in a column of integers, or
a finite binary64 number in its one form in a column in double precision. Integers have four bytes
in a store, fewer than the 53 bits asked for here. -/
inductive Value.Held : Cell.Kind → Value → Prop
  | null (kind : Cell.Kind) : Held kind .null
  | int (n : ℤ) (few : |(n : ℚ)| ≤ 2 ^ 53) : Held .integer (.int n)
  | double {x : Double} (finite : x.isFinite) (normal : x.IsNormal) : Held .double (.double x)

namespace Value.Held

variable {kind : Cell.Kind} {v : Value}

theorem measured (h : v.Held kind) : v.Measured := by
  cases h with
  | null => exact .null
  | int n => exact .int n
  | double finite => exact .double finite

theorem ofValue_eq (h : v.Held kind) :
    Cell.ofValue v = .ok (Cell.ofNumber? kind v.rational?) := by
  cases h with
  | null => rfl
  | int n => rw [Value.rational?_int, Cell.ofValue_int]; rfl
  | double finite => rw [Value.rational?_double finite, Cell.ofValue_double finite]; rfl

end Value.Held

/-! ### Scopes

A scope asks for a year, perhaps for a month and perhaps for a code. Each part that is there becomes
a condition, and is a test at hand; what is not there is neither. -/

namespace Legend

/-- A scope without a box whose parts are of the kinds that a rollup holds: the month may be
missing, and the code may be missing or empty. -/
structure Scope.Plain (s : Scope) : Prop where
  box : s.box = none
  year : ∃ y, s.year = .int y
  month : ∃ m, s.month = .ofInt? m
  code : ∃ t, s.inseeCode = .ofText? t

/-- A row whose parts are of the kinds that a rollup holds, or missing, and which measures what a
column of some kind of numbers holds. -/
structure Content (kind : Cell.Kind) (column : String) (row : Record) : Prop where
  year : ∃ y, row.getD "year" = .ofInt? y
  month : ∃ m, row.getD "month" = .ofInt? m
  code : ∃ t, row.getD "insee_code" = .ofText? t
  measured : (row.getD column).Held kind

namespace Scope

variable (s : Scope)

/-- The rollup of a scope; weeks are never asked for. -/
def rollup : Relation := ⟨.rollup, s.level, s.type, s.grain⟩

theorem relation_eq : s.relation = .ok s.rollup := by
  have monthly : s.grain ≠ .week := by
    rw [grain]
    split <;> decide
  exact if_pos fun h => monthly h.2

/-- Does a row within the scope measure something? These are the rows whose values are collected at
hand. -/
def collects (column : String) (row : Record) : Bool := s.holds row && !(row.getD column).isNull

/-- The values at hand are those of the rows that the scope collects. -/
theorem valuesWithin_eq (column : String) (rows : List Record) :
    valuesWithin s column rows = (rows.filter (s.collects column)).map (·.getD column) := by
  rw [valuesWithin, List.filter_map, List.filter_filter]
  refine congrArg _ (List.filter_congr fun row _ => ?_)
  exact Bool.and_comm _ _

theorem isSome_column?_year : (s.rollup.table.column? "year").isSome := by
  refine Relation.isSome_column?_key (c := ⟨"year", .integer, false⟩) rfl ?_
  have yearly : s.rollup.grain = if s.month.isNull then .year else .month := rfl
  rw [yearly]
  split <;> simp [Relation.periodColumns]

theorem isSome_column?_month {w : Value} (h : w ∈ s.month?) :
    (s.rollup.table.column? "month").isSome := by
  refine Relation.isSome_column?_key (c := ⟨"month", .integer, false⟩) rfl ?_
  have given : ¬s.month.isNull := fun null => by simp [month?, null] at h
  have monthly : s.rollup.grain = .month := if_neg given
  simp [monthly, Relation.periodColumns]

theorem isSome_column?_code : (s.rollup.table.column? "insee_code").isSome := by
  refine Relation.isSome_column?_key (c := ⟨"insee_code", .varchar 5, false⟩) rfl ?_
  cases h : s.rollup.level <;> simp [Relation.locationColumns]

end Scope

theorem isSome_column? {r : Relation} {field : Value} {c : Column} (h : column r field = .ok c) :
    (r.table.column? c.name).isSome := by
  obtain ⟨f, -, h⟩ := Outcome.bind_eq_ok_iff.1 h
  split at h
  · have found := Field.columnOn_eq_ok_iff.1 h
    rw [Table.name_of_column? found, found]
    rfl
  · nomatch h

theorem comparable_int (m : Option ℤ) (n : ℤ) : (Value.ofInt? m).Comparable (.int n) := by
  cases m with
  | none => exact .inl rfl
  | some m => exact .inr (.ints m n)

theorem comparable_text (s : Option String) (t : String) :
    (Value.ofText? s).Comparable (.text t) := by
  cases s with
  | none => exact .inl rfl
  | some s => exact .inr (.texts s t)

section Select

variable {d : Dialect} {kind : Cell.Kind} {s : Scope} {name : String} {row : Record}

/-- The metric of a row is null in the store where it is null at hand. -/
theorem Content.truth_isNotNull (content : Content kind name row) {metric : Term} {env : Env}
    (cell : metric.cell d [env] = Cell.ofValue (row.getD name)) :
    (Condition.isNotNull metric).truth d [env] =
      .ok (.ofBool (!(row.getD name).isNull)) := by
  rw [Condition.truth_isNotNull (cell.trans content.measured.ofValue_eq),
    content.measured.measured.valued.isNull_eq]
  cases (row.getD name).rational? <;> rfl

theorem Scope.Plain.month?_spec (plain : s.Plain) (content : Content kind name row) :
    ∀ w ∈ s.month?, w.Alike w ∧ (row.getD "month").Comparable w := by
  obtain ⟨m, hm⟩ := plain.month
  obtain ⟨n, hn⟩ := content.month
  intro w hw
  rw [Scope.month?, hm] at hw
  cases m with
  | none => nomatch hw
  | some m =>
    obtain rfl : Value.int m = w := by simpa [Value.ofInt?, Value.isNull] using hw
    exact ⟨.ints m m, hn ▸ comparable_int n m⟩

theorem Scope.Plain.code?_spec (plain : s.Plain) (content : Content kind name row) :
    ∀ w ∈ s.code?, w.Alike w ∧ (row.getD "insee_code").Comparable w := by
  obtain ⟨t, ht⟩ := plain.code
  obtain ⟨u, hu⟩ := content.code
  intro w hw
  rw [Scope.code?, ht] at hw
  cases t with
  | none => simp [Value.ofText?, Value.truthy] at hw
  | some t =>
    split at hw
    · obtain rfl : Value.text t = w := by simpa [Value.ofText?] using hw
      exact ⟨.texts t t, hu ▸ comparable_text u t⟩
    · nomatch hw

/-- **The conditions of a scope hold of the rows that it collects**, and of no others. -/
theorem Scope.exists_select (d : Dialect) (kind : Cell.Kind) (plain : s.Plain) {field : Value}
    {c : Column} (hc : column s.rollup field = .ok c) :
    ∃ selection, s.select field = .ok selection ∧
      selection.source = .ofTable s.rollup.table ∧
      selection.metric = .ofColumn s.rollup.table c ∧
      ∀ row, Content kind c.name row →
        Condition.holdAll d selection.conditions (s.rollup.env row) =
          .ok (s.collects c.name row) := by
  have noBox := plain.box
  obtain ⟨y, hy⟩ := plain.year
  let part (name : String) : Term := .column s.rollup.name name
  let conditions : List Condition := [Condition.equals (part "year") s.year] ++
    [.isNotNull (part c.name)] ++ (s.month?.map (Condition.equals (part "month"))).toList ++
    (s.code?.map (Condition.equals (part "insee_code"))).toList
  refine ⟨⟨.ofTable s.rollup.table, conditions, .ofColumn s.rollup.table c⟩, ?_, rfl, rfl,
    fun row content => ?_⟩
  · rw [select, s.relation_eq, Outcome.ok_bind, hc, Outcome.ok_bind, noBox]
    exact congrArg (fun asked => Except.ok (Selection.mk (.ofTable s.rollup.table) asked
      (.ofColumn s.rollup.table c))) (List.append_nil conditions)
  · obtain ⟨z, hz⟩ := content.year
    have cell {name : String} (h : (s.rollup.table.column? name).isSome) :
        (part name).cell d [s.rollup.env row] = Cell.ofValue (row.getD name) :=
      Relation.cell_env h d row
    have year := Condition.holdAll_equals (w := s.year) (hy ▸ .ints y y)
      (hy ▸ hz ▸ comparable_int z y) (cell s.isSome_column?_year)
    have measured := Condition.holdAll_singleton
      (content.truth_isNotNull (cell (isSome_column? hc)))
    have month := Condition.holdAll_equals? fun w hw => by
      obtain ⟨key, comparable⟩ := plain.month?_spec content w hw
      exact ⟨key, comparable, cell (s.isSome_column?_month hw)⟩
    have code := Condition.holdAll_equals? fun w hw => by
      obtain ⟨key, comparable⟩ := plain.code?_spec content w hw
      exact ⟨key, comparable, cell s.isSome_column?_code⟩
    have all := Condition.holdAll_append
      (Condition.holdAll_append (Condition.holdAll_append year measured) month) code
    refine all.trans (congrArg Except.ok ?_)
    rw [collects, holds, Bool.eq_iff_iff]
    simp only [Bool.and_eq_true, decide_eq_true_iff, Truth.ofBool_eq_yes]
    tauto

end Select

end Legend

/-! ### Bounds

A bound is a number of some kind, and how it is compared depends on the kind. At hand it counts for
what it denotes; the store is sent an integer or a decimal as it is, and a number in double
precision as a decimal of so many digits. -/

namespace Number

/-- The rational that a finite number denotes. -/
def value (x : Number) : ℚ := x.toRat?.getD 0

theorem quotient?_pos {x : Number} {q : ℤ × ℕ} (h : x.quotient? = some q) : 0 < q.2 := by
  have powers (b n : ℕ) (positive : 0 < b) : 0 < Nat.pow b n := Nat.pow_pos positive
  cases x with
  | flag b => rw [← Option.some.inj h]; exact Nat.one_pos
  | int n => rw [← Option.some.inj h]; exact Nat.one_pos
  | decimal x => rw [← Option.some.inj h]; exact powers 10 _ (by decide)
  | double x =>
    cases x with
    | nan => nomatch h
    | infinite _ => nomatch h
    | finite negative m e => rw [← Option.some.inj h]; exact powers 2 _ (by decide)

/-- Numbers of any kinds are compared by what they denote. -/
theorem compare?_eq {x y : Number} (hx : x.toRat?.isSome) (hy : y.toRat?.isSome) :
    x.compare? y = some (compare x.value y.value) := by
  rw [toRat?, Option.isSome_map, Option.isSome_iff_exists] at hx hy
  obtain ⟨⟨a, b⟩, hx⟩ := hx
  obtain ⟨⟨c, e⟩, hy⟩ := hy
  have hb : (0 : ℚ) < b := by exact_mod_cast quotient?_pos hx
  have he : (0 : ℚ) < e := by exact_mod_cast quotient?_pos hy
  have xValue : x.value = a / b := by
    rw [value, toRat?, hx, Option.map_some, Option.getD_some, Rat.mkRat_eq_div]
  have yValue : y.value = c / e := by
    rw [value, toRat?, hy, Option.map_some, Option.getD_some, Rat.mkRat_eq_div]
  have crossed : compare (a * e : ℤ) (c * b) = compare (a / b : ℚ) (c / e) := by
    obtain less | equal | more := lt_trichotomy (a / b : ℚ) (c / e)
    · rw [compare_lt_iff_lt.2 less, compare_lt_iff_lt]
      exact_mod_cast (div_lt_div_iff₀ hb he).1 less
    · rw [compare_eq_iff_eq.2 equal, compare_eq_iff_eq]
      exact_mod_cast (div_eq_div_iff hb.ne' he.ne').1 equal
    · rw [compare_gt_iff_gt.2 more, compare_gt_iff_gt]
      exact_mod_cast (div_lt_div_iff₀ he hb).1 more
  simp only [compare?, hx, hy, crossed, xValue, yValue]

theorem lt_eq {x y : Number} (hx : x.toRat?.isSome) (hy : y.toRat?.isSome) :
    x.lt y = decide (x.value < y.value) := by
  rw [lt, compare?_eq hx hy, Bool.eq_iff_iff, decide_eq_true_iff, beq_iff_eq, Option.some_inj,
    compare_lt_iff_lt]

theorem le_eq {x y : Number} (hx : x.toRat?.isSome) (hy : y.toRat?.isSome) :
    x.le y = decide (x.value ≤ y.value) := by
  rw [le, compare?_eq hx hy, Bool.eq_iff_iff, decide_eq_true_iff, Bool.or_eq_true, beq_iff_eq,
    beq_iff_eq, Option.some_inj, Option.some_inj, compare_lt_iff_lt, compare_eq_iff_eq,
    le_iff_lt_or_eq]

/-- A number that can be sent as a bound: an integer, a decimal, or a finite binary64 number in its
one form. -/
inductive Sendable : Number → Prop
  | int (n : ℤ) : Sendable (.int n)
  | decimal (x : Decimal) : Sendable (.decimal x)
  | double {x : Double} (finite : x.isFinite) (normal : x.IsNormal) : Sendable (.double x)

/-- The rational that the store compares with for a bound. Only a bound in double precision is sent
as another number: as a decimal of so many digits. -/
def asSent (d : Dialect) : Number → ℚ
  | .double x => d.sent x.value
  | x => x.value

theorem value_int (n : ℤ) : (int n).value = n := by
  have quotient : (int n).value = mkRat n 1 := rfl
  rw [quotient, Rat.mkRat_eq_div, Nat.cast_one, div_one]

theorem value_double {x : Double} (finite : x.isFinite) : (double x).value = x.value :=
  (congrArg (Option.getD · 0) (Double.toRat?_eq finite)).trans rfl

namespace Sendable

variable {x : Number}

theorem isSome_toRat? (h : x.Sendable) : x.toRat?.isSome := by
  cases h with
  | int n => rfl
  | decimal x => rfl
  | @double x finite => exact (congrArg Option.isSome (Double.toRat?_eq finite)).trans rfl

theorem withValue_eq (h : x.Sendable) (c : Comparator) (term : Term) :
    c.withValue term x.toValue = .ok (.compare c term (.bound x.toValue)) := by
  cases h <;> rfl

/-- The comparison of an exact number with a bound. -/
theorem exists_cell (h : x.Sendable) (d : Dialect) :
    ∃ cell, Cell.ofValue x.toValue = .ok cell ∧ ∀ (c : Comparator) (y : ℚ),
      d.test c (.number .exact y) cell =
        .ok (.ofBool (c.accepts (compare y (x.asSent d)))) := by
  cases h with
  | int n =>
    have same : (Number.int n).asSent d = n := value_int n
    rw [same]
    exact ⟨.int n, rfl, fun c y => rfl⟩
  | decimal x => exact ⟨.number .exact x.toRat, rfl, fun c y => rfl⟩
  | @double x finite =>
    exact ⟨.number .double x.value, Cell.ofValue_double finite, fun c y => rfl⟩

end Sendable

end Number

/-! ### Buckets

A bucket has two bounds, either of which may be missing, and it holds its upper bound only if it is
the last one. Its conditions are those of the bounds that it has. -/

namespace Range

/-- A bucket whose bounds can be sent: each bound that there is can be. -/
structure Sendable (r : Range Number) : Prop where
  lower : ∀ x ∈ r.lower, x.Sendable
  upper : ∀ x ∈ r.upper, x.Sendable

/-- Which numbers a bucket holds, as its conditions ask for it. -/
theorem holds_map (r : Range Number) (f : Number → ℚ) (y : ℚ) :
    (r.map f).holds y =
      ((r.lower.all fun x => Comparator.ge.accepts (compare y (f x))) &&
        r.upper.all fun x =>
          (if r.isLast then Comparator.le else .lt).accepts (compare y (f x))) := by
  have below (x : Number) :
      (!Measure.lt y (f x)) = Comparator.ge.accepts (compare y (f x)) := by
    rw [Bool.eq_iff_iff, Comparator.accepts_compare, Bool.not_eq_true',
      Measure.lt_eq_false_iff]
    rfl
  have above (x : Number) :
      (if r.isLast then Measure.le y (f x) else Measure.lt y (f x)) =
        (if r.isLast then Comparator.le else .lt).accepts (compare y (f x)) := by
    rw [Bool.eq_iff_iff, Comparator.accepts_compare]
    cases r.isLast
    · exact Measure.Lawful.lt_iff y (f x)
    · exact Measure.Lawful.le_iff y (f x)
  rw [holds, map]
  simp only [Option.all_map, below, above]

/-- What a bucket holds is a matter of the order of its bounds and the number. -/
theorem holds_map_congr {r : Range Number} {f g : Number → ℚ} {y : ℚ}
    (lower : ∀ x ∈ r.lower, compare y (f x) = compare y (g x))
    (upper : ∀ x ∈ r.upper, compare y (f x) = compare y (g x)) :
    (r.map f).holds y = (r.map g).holds y := by
  rw [holds_map, holds_map]
  congr 1
  · cases h : r.lower with
    | none => rfl
    | some x => simp only [Option.all_some, lower x h]
  · cases h : r.upper with
    | none => rfl
    | some x => simp only [Option.all_some, upper x h]

section Conditions

variable {r : Range Number}

/-- The condition of a bound, which is left out where there is no bound. Of null it does not
hold. -/
theorem exists_bound (d : Dialect) (c : Comparator) (term : Term) {x? : Option Number}
    (sendable : ∀ x ∈ x?, x.Sendable) :
    ∃ conditions : List Condition,
      ((x?.map Number.toValue).elim (.ok []) fun value =>
        (c.withValue (.cast term .number) value).map fun condition => [condition]) =
        (.ok conditions : Except Fault _) ∧
      ∀ (kind : Cell.Kind) (env : Env) (y? : Option ℚ),
        term.cell d [env] = .ok (Cell.ofNumber? kind y?) →
        Condition.holdAll d conditions env = .ok (x?.all fun x =>
          y?.any fun y => c.accepts (compare (d.exact kind y) (x.asSent d))) := by
  cases x? with
  | none => exact ⟨[], rfl, fun _ _ _ _ => rfl⟩
  | some x =>
    have sendable := sendable x rfl
    obtain ⟨bound, hbound, compared⟩ := sendable.exists_cell d
    refine ⟨[.compare c (.cast term .number) (.bound x.toValue)],
      congrArg (Except.map fun condition => [condition]) (sendable.withValue_eq c _),
      fun kind env y? cell => ?_⟩
    have hx : (Term.bound x.toValue).cell d [env] = .ok bound := hbound
    cases y? with
    | none =>
      have cast : (Term.cast term .number).cell d [env] = .ok .null := Term.cell_cast _ cell
      have asked := (Condition.truth_compare c cast hx).trans (d.test_null_left c bound)
      exact Condition.holdAll_singleton asked
    | some y =>
      have cast :
          (Term.cast term .number).cell d [env] = .ok (.number .exact (d.exact kind y)) := by
        refine (Term.cell_cast .number cell).trans ?_
        cases kind <;> rfl
      have asked := (Condition.truth_compare c cast hx).trans (compared c _)
      rw [Condition.holdAll_singleton asked]
      simp

/-- **The conditions of a bucket hold of a number exactly if the bucket, as it is sent, holds what
the number is cast to.** Null satisfies them only if the bucket has no bounds. -/
theorem exists_conditions (d : Dialect) (sendable : r.Sendable) (term : Term) :
    ∃ conditions, (r.map Number.toValue).conditions term = .ok conditions ∧
      ∀ (kind : Cell.Kind) (env : Env) (y? : Option ℚ),
        term.cell d [env] = .ok (Cell.ofNumber? kind y?) →
        Condition.holdAll d conditions env = .ok (y?.elim (r.lower.isNone && r.upper.isNone)
          fun y => (r.map (Number.asSent d)).holds (d.exact kind y)) := by
  obtain ⟨below, hbelow, askedBelow⟩ := exists_bound d .ge term sendable.lower
  obtain ⟨above, habove, askedAbove⟩ :=
    exists_bound d (if r.isLast then .le else .lt) term sendable.upper
  refine ⟨below ++ above, ?_, fun kind env y? cell => ?_⟩
  · exact Outcome.bind_eq_ok_iff.2 ⟨below, hbelow,
      Outcome.bind_eq_ok_iff.2 ⟨above, habove, rfl⟩⟩
  · refine (Condition.holdAll_append (askedBelow kind env y? cell)
      (askedAbove kind env y? cell)).trans (congrArg Except.ok ?_)
    cases y? with
    | none => cases r.lower <;> cases r.upper <;> rfl
    | some y => exact (r.holds_map (Number.asSent d) _).symm

/-- Numbers of any kinds are in a bucket by what they denote, so the bucket can be taken as one of
rationals. -/
theorem holds_eq (sendable : r.Sendable) {x : Number} (hx : x.toRat?.isSome) :
    r.holds x = (r.map Number.value).holds x.value := by
  have below : (r.lower.all fun b => !Measure.lt x b) =
      r.lower.all fun b => !Measure.lt x.value b.value := by
    cases h : r.lower with
    | none => rfl
    | some b => exact congrArg not (Number.lt_eq hx (sendable.lower b h).isSome_toRat?)
  have above : (r.upper.all fun b => if r.isLast then Measure.le x b else Measure.lt x b) =
      r.upper.all fun b =>
        if r.isLast then Measure.le x.value b.value else Measure.lt x.value b.value := by
    cases h : r.upper with
    | none => rfl
    | some b =>
      have finite := (sendable.upper b h).isSome_toRat?
      cases r.isLast
      · exact Number.lt_eq hx finite
      · exact Number.le_eq hx finite
  rw [holds, below, above, holds, map, Option.all_map, Option.all_map]

end Conditions

end Range

end PropertyMarket
