import PropertyMarket.Proofs.PercentRange
import PropertyMarket.Proofs.YearlyRows

/-!
# Each year with the year before

Whatever rows are at hand, in any order and with any number of rows for one location and year, the
comparisons are an inner join with a lag of one year: one flat row for each location and year that
occurs together with the year before, in the order of locations and years, and computed from the
last row of either year. Nothing bridges a gap between years.

The only thing that can go wrong is a change in percent that is too large for binary64. One of them
is enough to have no comparison at all.

## Main definitions

* `YearlyComparison.Comparable` — rows of texts and integers, some of which may be missing
* `YearlyComparison.lastRow?` — the last row of a location and year
* `YearlyComparison.InRange` — no change in percent is too large
* `YearlyComparison.Compares` — what a flat row says of two rows
* `YearlyComparison.Joins` — one flat row for each year with the year before, in order

## Main results

* `YearlyComparison.compares_flatValues` — what the flat row of two rows says of them
* `YearlyComparison.rows_joins` — the comparisons of rows at hand, and when there are none

## Implementation notes

A flat row is written by putting columns into a record one after the other, so a later column can
overwrite an earlier one of the same name. The names of the parts are told apart by their endings,
and a key column is only promised to be kept if it is not the name of a computed column; for the
columns of the relations that is always the case.

Being in range is asked of every pair that is compared and of no others. Since the comparisons are
computed in order and stop at the first fault, one pair that is out of range is enough for there to
be none.
-/

namespace PropertyMarket

/-- A quotient of integers that is too large is refused. -/
theorem Number.div_int_eq_error {a b : ℤ} (large : (divInt a b).isFinite = false) :
    (int a).div (int b) = .error .tooLarge := by
  simp only [div, join, asInt?, Option.getD_some, Outcome.ok_bind]
  cases found : divInt a b with
  | finite s m e =>
    rw [found] at large
    cases large
  | infinite s => rfl
  | nan => exact absurd found (Double.ofQuotient_ne_nan _ _ _)

namespace YearlyComparison

/-! ### Changes in percent

Of two integers there is nothing to compare, or a quotient that is in range, or one that is not. The
three cases exclude each other, and each has its own outcome. -/

/-- The change in percent is not too large for binary64. -/
def PercentInRange (current base : Option ℤ) : Prop :=
  ∀ c ∈ current, ∀ b ∈ base, b ≠ 0 → |percentOf c b| < Double.overflow

/-- The same of all fields of two rows. -/
def FieldsInRange (fields : List String) (current base : Record) : Prop :=
  ∀ name ∈ fields, PercentInRange (current.int? name) (base.int? name)

/-- A change in percent: null without a base, from a base of zero, and without a current number, and
the exact change in hundredths otherwise, as far as binary64 has it. -/
structure IsPercent (current base : Option ℤ) (v : Value) : Prop where
  null_iff : v = .null ↔ base = none ∨ base = some 0 ∨ current = none
  number : ∀ c ∈ current, ∀ b ∈ base, b ≠ 0 →
    ∃ x : Double, v = .double x ∧ x.isFinite = true ∧ x.value = hundredths (percentOf c b)

section Percent

variable {current base : Option ℤ}

/-- There is nothing to compare, or there are two integers to compare. -/
theorem null_or_exists (current base : Option ℤ) :
    (base = none ∨ base = some 0 ∨ current = none) ∨
      ∃ c b, current = some c ∧ base = some b ∧ b ≠ 0 := by
  cases base with
  | none => exact .inl (.inl rfl)
  | some b =>
    cases current with
    | none => exact .inl (.inr (.inr rfl))
    | some c =>
      by_cases zero : b = 0
      · exact .inl (.inr (.inl (congrArg some zero)))
      · exact .inr ⟨c, b, rfl, rfl, zero⟩

/-- Where there is nothing to compare, the change in percent is null. -/
theorem percentChange_of_null (h : base = none ∨ base = some 0 ∨ current = none) :
    percentChange (.ofInt? current) (.ofInt? base) = .ok .null ∧
      percentValue current base = .null := by
  obtain rfl | rfl | rfl := h
  · exact ⟨by cases current <;> rfl, by cases current <;> rfl⟩
  · exact ⟨by cases current <;> rfl, by cases current <;> rfl⟩
  · refine ⟨?_, by cases base <;> rfl⟩
    rw [percentChange, if_pos]
    have missing : (Value.ofInt? none).isNull = true := rfl
    rw [missing, Bool.or_true]

theorem isFinite_iff_of_ne {c b : ℤ} (hb : b ≠ 0) :
    (Number.divInt (100 * (c - b)) b).isFinite = true ↔ |percentOf c b| < Double.overflow := by
  rw [Number.isFinite_divInt_iff hb, ← percentOf_eq_div]

theorem inRange_iff {c b : ℤ} (hb : b ≠ 0) :
    PercentInRange (some c) (some b) ↔ |percentOf c b| < Double.overflow := by
  constructor
  · intro range
    exact range c rfl b rfl hb
  · intro less current hcurrent base hbase _
    obtain rfl := Option.some.inj hcurrent
    obtain rfl := Option.some.inj hbase
    exact less

/-- A change in percent that is in range is a number or null. -/
theorem percentChange_of_inRange (range : PercentInRange current base) :
    percentChange (.ofInt? current) (.ofInt? base) = .ok (percentValue current base) := by
  obtain null | ⟨c, b, rfl, rfl, hb⟩ := null_or_exists current base
  · obtain ⟨computed, value⟩ := percentChange_of_null null
    rw [computed, value]
  · rw [percentValue, if_neg hb]
    exact percentChange_int hb ((isFinite_iff_of_ne hb).2 ((inRange_iff hb).1 range))

/-- A change in percent that is not in range is refused. -/
theorem percentChange_of_not_inRange (large : ¬PercentInRange current base) :
    percentChange (.ofInt? current) (.ofInt? base) = .error .tooLarge := by
  obtain null | ⟨c, b, rfl, rfl, hb⟩ := null_or_exists current base
  · refine absurd (fun c hc b hb nonzero => ?_) large
    rw [Option.mem_def] at hc hb
    simp [hc, hb, nonzero] at null
  · have infinite : (Number.divInt (100 * (c - b)) b).isFinite = false := by
      rw [← Bool.not_eq_true, isFinite_iff_of_ne hb, ← inRange_iff hb]
      exact large
    rw [Value.ofInt?, Value.ofInt?, percentChange_int_eq hb, Number.div_int_eq_error infinite]
    rfl

/-- What a change in percent that is in range is. -/
theorem isPercent_percentValue (range : PercentInRange current base) :
    IsPercent current base (percentValue current base) := by
  obtain null | ⟨c, b, rfl, rfl, hb⟩ := null_or_exists current base
  · refine ⟨iff_of_true (percentChange_of_null null).2 null, fun c hc b hb nonzero => ?_⟩
    rw [Option.mem_def] at hc hb
    simp [hc, hb, nonzero] at null
  · have finite := (isFinite_iff_of_ne hb).2 ((inRange_iff hb).1 range)
    have number : percentValue (some c) (some b) =
        .double ((Number.divInt (100 * (c - b)) b).roundPlaces 2) := if_neg hb
    refine ⟨iff_of_false (by rw [number]; nofun) (by simpa using hb), fun c' hc b' hb' _ => ?_⟩
    obtain rfl := Option.some.inj hc
    obtain rfl := Option.some.inj hb'
    refine ⟨_, number, Number.isFinite_roundPlaces_divInt 2 hb finite, ?_⟩
    rw [Number.value_roundPlaces_divInt 2 hb finite, ← percentOf_eq_div, hundredths]

end Percent

/-! ### Flat rows

A flat row has the columns of its location, its two years, and four columns for each field. It is
described by what is found under each of these names. -/

/-- Rows with texts in their key columns and an integer as their year, and with integers or nothing
in what is compared. -/
structure Comparable (keyColumns fields : List String) (yearly : List Record) : Prop where
  typed : Record.Typed keyColumns ["year"] yearly
  counted : ∀ row ∈ yearly, ∀ name ∈ fields, ∃ n : Option ℤ, row.getD name = .ofInt? n

/-- The columns of a flat row, apart from its key. -/
def computedColumns (fields : List String) : List String :=
  "year" :: "base_year" ::
    fields.flatMap fun name => Comparison.parts.map fun part => part.column name

/-- What a flat row says of two rows: their location and their years, and of each field both of its
values, the change and the change in percent. -/
structure Compares (keyColumns fields : List String) (current base flat : Record) : Prop where
  columns : ∀ column, column ∈ flat.names ↔ column ∈ keyColumns ∨ column ∈ computedColumns fields
  location : ∀ k ∈ keyColumns, k ∉ computedColumns fields →
    flat.get? k = some (.text (current.text k))
  year : flat.get? "year" = some (.int current.year)
  baseYear : flat.get? "base_year" = some (.int (current.year - 1))
  baseValue : ∀ name ∈ fields, flat.get? (Comparison.Part.base.column name) = some (base.getD name)
  currentValue : ∀ name ∈ fields,
    flat.get? (Comparison.Part.current.column name) = some (current.getD name)
  delta : ∀ name ∈ fields, flat.get? (Comparison.Part.delta.column name) =
    some (.ofInt? (change (current.int? name) (base.int? name)))
  percent : ∀ name ∈ fields, ∃ v, flat.get? (Comparison.Part.percent.column name) = some v ∧
    IsPercent (current.int? name) (base.int? name) v

/-- The value of a part of a comparison. -/
def partValue (current base : Option ℤ) : Comparison.Part → Value
  | .base => .ofInt? base
  | .current => .ofInt? current
  | .delta => .ofInt? (change current base)
  | .percent => percentValue current base

/-- The parts of the comparisons of two rows. -/
def parts (fields : List String) (current base : Record) : Record :=
  fields.flatMap fun name => Comparison.parts.map fun part =>
    (part.column name, partValue (current.int? name) (base.int? name) part)

/-- The flat row of two rows. -/
def flatValues (keyColumns fields : List String) (current base : Record) : Record :=
  ((Record.putAll [] (keyColumns.map fun k => (k, .text (current.text k)))).putAll
    [("year", .int current.year), ("base_year", .int (current.year - 1))]).putAll
      (parts fields current base)

section Flat

variable {keyColumns fields : List String} {yearly : List Record} {current base : Record}

theorem Comparable.getD_eq (h : Comparable keyColumns fields yearly) (hrow : current ∈ yearly)
    {name : String} (hname : name ∈ fields) :
    current.getD name = .ofInt? (current.int? name) := by
  obtain ⟨n, hn⟩ := h.counted current hrow name hname
  rw [Record.int?, hn]
  cases n <;> rfl

theorem Comparable.year_eq (h : Comparable keyColumns fields yearly) (hrow : current ∈ yearly) :
    current.get? "year" = some (.int current.year) :=
  h.typed.get?_int hrow (List.mem_singleton_self _)

theorem mem_parts {field : String × Value} : field ∈ parts fields current base ↔
    ∃ name ∈ fields, ∃ part, field =
      (part.column name, partValue (current.int? name) (base.int? name) part) := by
  simp [parts, eq_comm]

theorem mem_computedColumns {column : String} : column ∈ computedColumns fields ↔
    column = "year" ∨ column = "base_year" ∨
      ∃ name ∈ fields, ∃ part : Comparison.Part, column = part.column name := by
  simp [computedColumns, eq_comm]

theorem mem_names_parts {column : String} : column ∈ (parts fields current base).names ↔
    ∃ name ∈ fields, ∃ part : Comparison.Part, column = part.column name := by
  rw [Record.names, List.mem_map]
  constructor
  · rintro ⟨field, hfield, rfl⟩
    obtain ⟨name, hname, part, rfl⟩ := mem_parts.1 hfield
    exact ⟨name, hname, part, rfl⟩
  · rintro ⟨name, hname, part, rfl⟩
    exact ⟨_, mem_parts.2 ⟨name, hname, part, rfl⟩, rfl⟩

/-- A part of a comparison is read under its column. -/
theorem get?_flatValues_part {name : String} (hname : name ∈ fields) (part : Comparison.Part) :
    (flatValues keyColumns fields current base).get? (part.column name) =
      some (partValue (current.int? name) (base.int? name) part) := by
  refine Record.get?_putAll_of_mem (mem_parts.2 ⟨name, hname, part, rfl⟩) ?_ _
  rintro field hfield same
  obtain ⟨name', -, part', rfl⟩ := mem_parts.1 hfield
  obtain ⟨rfl, rfl⟩ := Comparison.Part.column_inj.1 same
  rfl

/-- No part of a comparison is written under other names. -/
theorem get?_flatValues_of_ne {column : String}
    (differs : ∀ name ∈ fields, ∀ part : Comparison.Part, part.column name ≠ column) :
    (flatValues keyColumns fields current base).get? column =
      ((Record.putAll [] (keyColumns.map fun k => (k, .text (current.text k)))).putAll
        [("year", .int current.year), ("base_year", .int (current.year - 1))]).get? column := by
  refine Record.get?_putAll_of_forall_ne (fun field hfield => ?_) _
  obtain ⟨name, hname, part, rfl⟩ := mem_parts.1 hfield
  exact differs name hname part

/-- **What the flat row of two rows says of them.** It names their location and their years, and
compares each of their fields. -/
theorem compares_flatValues (h : Comparable keyColumns fields yearly) (hc : current ∈ yearly)
    (hb : base ∈ yearly) (range : FieldsInRange fields current base) :
    Compares keyColumns fields current base (flatValues keyColumns fields current base) where
  columns column := by
    have keys : Record.names (keyColumns.map fun k => (k, Value.text (current.text k))) =
        keyColumns := by
      rw [Record.names, List.map_map]
      exact List.map_id _
    rw [flatValues, Record.mem_names_putAll, Record.mem_names_putAll, Record.mem_names_putAll, keys,
      mem_names_parts, mem_computedColumns]
    simp [Record.names, or_assoc]
  location k hk new := by
    rw [mem_computedColumns, not_or, not_or] at new
    obtain ⟨year, baseYear, part⟩ := new
    rw [get?_flatValues_of_ne fun name hname p same => part ⟨name, hname, p, same.symm⟩,
      Record.get?_putAll_of_forall_ne (by simp [Ne.symm year, Ne.symm baseYear])]
    refine Record.get?_putAll_of_mem (List.mem_map.2 ⟨k, hk, rfl⟩) ?_ _
    rintro field hfield rfl
    obtain ⟨k, -, rfl⟩ := List.mem_map.1 hfield
    rfl
  year := by
    rw [get?_flatValues_of_ne fun name _ part => (part.column_ne_year name).1]
    exact Record.get?_putAll_of_mem List.mem_cons_self (by simp) _
  baseYear := by
    rw [get?_flatValues_of_ne fun name _ part => (part.column_ne_year name).2]
    exact Record.get?_putAll_of_mem (List.mem_cons_of_mem _ List.mem_cons_self) (by simp) _
  baseValue name hname := by rw [get?_flatValues_part hname, partValue, h.getD_eq hb hname]
  currentValue name hname := by rw [get?_flatValues_part hname, partValue, h.getD_eq hc hname]
  delta name hname := get?_flatValues_part hname .delta
  percent name hname :=
    ⟨_, get?_flatValues_part hname .percent, isPercent_percentValue (range name hname)⟩

/-- The columns of one comparison are there unless its change in percent is too large. -/
theorem flatField_eq (h : Comparable keyColumns fields yearly) (hc : current ∈ yearly)
    (hb : base ∈ yearly) {name : String} (hname : name ∈ fields) :
    flatField base current name = do
      let p ← percentChange (.ofInt? (current.int? name)) (.ofInt? (base.int? name))
      return [(Comparison.Part.base.column name, .ofInt? (base.int? name)),
        (Comparison.Part.current.column name, .ofInt? (current.int? name)),
        (Comparison.Part.delta.column name, .ofInt? (change (current.int? name) (base.int? name))),
        (Comparison.Part.percent.column name, p)] := by
  rw [flatField, h.getD_eq hc hname, h.getD_eq hb hname, difference_ofInt?]
  rfl

/-- Two rows have a flat row if no change in percent is too large. -/
theorem flatRow_of_inRange (h : Comparable keyColumns fields yearly) (hc : current ∈ yearly)
    (hb : base ∈ yearly) (range : FieldsInRange fields current base) :
    flatRow keyColumns ((current.texts keyColumns).map .text) (.int current.year)
      (.int (current.year - 1)) fields base current =
      .ok (flatValues keyColumns fields current base) := by
  have each : fields.mapM (flatField base current) = .ok (fields.map fun name =>
      Comparison.parts.map fun part =>
        (part.column name, partValue (current.int? name) (base.int? name) part)) := by
    refine Outcome.mapM_eq_ok_map fun name hname => ?_
    rw [flatField_eq h hc hb hname, percentChange_of_inRange (range name hname)]
    rfl
  have keys : keyColumns.zip ((current.texts keyColumns).map Value.text) =
      keyColumns.map fun k => (k, Value.text (current.text k)) := by
    rw [Record.texts, List.map_map]
    exact List.map_prod_left_eq_zip.symm
  rw [flatRow, each, Outcome.ok_bind, keys, flatValues, parts, List.flatMap_def]
  rfl

/-- Two rows have none if a change in percent is too large. -/
theorem flatRow_of_not_inRange (h : Comparable keyColumns fields yearly) (hc : current ∈ yearly)
    (hb : base ∈ yearly) (large : ¬FieldsInRange fields current base) (key : RowKey)
    (year baseYear : Value) :
    flatRow keyColumns key year baseYear fields base current = .error .tooLarge := by
  have refused : fields.mapM (flatField base current) = .error .tooLarge := by
    refine Outcome.mapM_eq_error_of_exists (fun name hname e failed => ?_) ?_
    · by_cases range : PercentInRange (current.int? name) (base.int? name)
      · rw [flatField_eq h hc hb hname, percentChange_of_inRange range] at failed
        nomatch failed
      · rw [flatField_eq h hc hb hname, percentChange_of_not_inRange range] at failed
        exact (Except.error.inj failed).symm
    · simp only [FieldsInRange, not_forall] at large
      obtain ⟨name, hname, large⟩ := large
      refine ⟨name, hname, ?_⟩
      rw [flatField_eq h hc hb hname, percentChange_of_not_inRange large]
      rfl
  rw [flatRow, refused]
  rfl

end Flat

/-! ### The join

The rows that count are the last ones of their places, and the places that are compared are those
that occur together with the place before. Both are stated without reference to keys or look-ups. -/

/-- The last row of a location and year. -/
def lastRow? (keyColumns : List String) (yearly : List Record) (location : List String)
    (year : ℤ) : Option Record :=
  (yearly.filter fun row => row.texts keyColumns = location ∧ row.year = year).getLast?

/-- No change in percent from one year to the next is too large. -/
def InRange (keyColumns fields : List String) (yearly : List Record) : Prop :=
  ∀ location year current base, lastRow? keyColumns yearly location year = some current →
    lastRow? keyColumns yearly location (year - 1) = some base → FieldsInRange fields current base

/-- One flat row for each location and year that occurs with the year before, in their order, and of
the last rows of both years. A year without the year before has none, however near the next earlier
year is. -/
def Joins (keyColumns fields : List String) (yearly flat : List Record) : Prop :=
  ∃ places : List (List String × ℤ),
    places.Pairwise (fun p q => p.1 < q.1 ∨ p.1 = q.1 ∧ p.2 < q.2) ∧
    (∀ location year, (location, year) ∈ places ↔
      (∃ row ∈ yearly, row.texts keyColumns = location ∧ row.year = year) ∧
        ∃ row ∈ yearly, row.texts keyColumns = location ∧ row.year = year - 1) ∧
    List.Forall₂ (fun place row => ∃ current base,
      lastRow? keyColumns yearly place.1 place.2 = some current ∧
      lastRow? keyColumns yearly place.1 (place.2 - 1) = some base ∧
      Compares keyColumns fields current base row) places flat

section Join

variable {keyColumns fields : List String} {yearly : List Record} {row current base : Record}
  {p : List String ×ₗ ℤ}

theorem lastRow?_eq (keyColumns : List String) (yearly : List Record) (location : List String)
    (year : ℤ) : lastRow? keyColumns yearly location year =
      RowKey.lastAt? (place keyColumns) yearly (toLex (location, year)) := by
  rw [lastRow?, RowKey.lastAt?, RowKey.rowsAt]
  refine congrArg List.getLast? (List.filter_congr fun row _ => ?_)
  rw [decide_eq_decide, place, toLex_inj, Prod.mk.injEq]

/-- The row that counts is the last one. -/
theorem lastRow?_eq_rowOf (hp : p ∈ years keyColumns yearly) :
    lastRow? keyColumns yearly (ofLex p).1 (ofLex p).2 = some (rowOf keyColumns yearly p) := by
  obtain ⟨row, -, last, -⟩ := RowKey.exists_lastAt? hp
  rw [lastRow?_eq, rowOf]
  exact last.trans (congrArg some (Option.getD_eq_iff.2 (.inl last)).symm)

theorem mem_years_of_lastRow? {location : List String} {year : ℤ}
    (h : lastRow? keyColumns yearly location year = some row) :
    toLex (location, year) ∈ years keyColumns yearly := by
  obtain ⟨hrow, here⟩ := List.mem_filter.1 (List.mem_of_getLast? h)
  exact mem_years.2 ⟨row, hrow, of_decide_eq_true here⟩

/-- The changes in percent of a year that is compared are in range. -/
def InRangeAt (keyColumns fields : List String) (yearly : List Record) (p : List String ×ₗ ℤ) :
    Prop :=
  FieldsInRange fields (rowOf keyColumns yearly p) (rowOf keyColumns yearly (before p))

theorem inRange_iff_forall :
    InRange keyColumns fields yearly ↔
      ∀ p ∈ joined keyColumns yearly, InRangeAt keyColumns fields yearly p := by
  constructor
  · intro range p hp
    obtain ⟨now, earlier⟩ := mem_joined.1 hp
    exact range _ _ _ _ (lastRow?_eq_rowOf now) (lastRow?_eq_rowOf earlier)
  · intro range location year current base hc hb
    have now := mem_years_of_lastRow? hc
    have earlier := mem_years_of_lastRow? hb
    obtain rfl := Option.some.inj (hc.symm.trans (lastRow?_eq_rowOf now))
    obtain rfl := Option.some.inj (hb.symm.trans (lastRow?_eq_rowOf earlier))
    exact range _ (mem_joined.2 ⟨now, earlier⟩)

section Rows

variable (h : Comparable keyColumns fields yearly)

include h

theorem exists_flatAt (hp : p ∈ joined keyColumns yearly)
    (range : InRangeAt keyColumns fields yearly p) :
    ∃ flat, flatAt keyColumns fields yearly p = .ok flat ∧
      Compares keyColumns fields (rowOf keyColumns yearly p) (rowOf keyColumns yearly (before p))
        flat := by
  obtain ⟨now, earlier⟩ := mem_joined.1 hp
  have hc := (rowOf_spec now).1
  have hb := (rowOf_spec earlier).1
  rw [flatAt, ← texts_rowOf now, ← year_rowOf now]
  exact ⟨_, flatRow_of_inRange h hc hb range, compares_flatValues h hc hb range⟩

theorem flatAt_eq_error (hp : p ∈ joined keyColumns yearly)
    (large : ¬InRangeAt keyColumns fields yearly p) :
    flatAt keyColumns fields yearly p = .error .tooLarge := by
  obtain ⟨now, earlier⟩ := mem_joined.1 hp
  exact flatRow_of_not_inRange h (rowOf_spec now).1 (rowOf_spec earlier).1 large _ _ _

/-- A flat row of a year that is compared. -/
theorem compares_of_flatAt (hp : p ∈ joined keyColumns yearly) {flat : Record}
    (found : flatAt keyColumns fields yearly p = .ok flat) :
    InRangeAt keyColumns fields yearly p ∧
      Compares keyColumns fields (rowOf keyColumns yearly p) (rowOf keyColumns yearly (before p))
        flat := by
  by_cases range : InRangeAt keyColumns fields yearly p
  · obtain ⟨_, hflat, compares⟩ := exists_flatAt h hp range
    obtain rfl := Except.ok.inj (hflat.symm.trans found)
    exact ⟨range, compares⟩
  · rw [flatAt_eq_error h hp range] at found
    nomatch found

/-- The comparisons that there are, are those of the join. -/
theorem joins_of_rows {flat : List Record}
    (found : YearlyComparison.rows keyColumns fields yearly = .ok flat) :
    Joins keyColumns fields yearly flat := by
  rw [rows_eq_mapM h.typed] at found
  refine ⟨(joined keyColumns yearly).map ofLex, ?_, fun location year => ?_, ?_⟩
  · rw [List.pairwise_map]
    exact ((RowKey.pairwise_placesOf (place keyColumns) yearly).filter _).imp Prod.Lex.lt_iff.1
  · rw [← mem_years, ← mem_years]
    exact (List.mem_map_of_injective ofLex.injective).trans mem_joined
  · rw [List.forall₂_map_left_iff]
    have each := (List.forall₂_and_left (p := (· ∈ joined keyColumns yearly)) _ _).2
      ⟨fun p hp => hp, Outcome.mapM_eq_ok_iff.1 found⟩
    refine each.imp fun p row ⟨hp, hrow⟩ => ?_
    obtain ⟨now, earlier⟩ := mem_joined.1 hp
    exact ⟨_, _, lastRow?_eq_rowOf now, lastRow?_eq_rowOf earlier,
      (compares_of_flatAt h hp hrow).2⟩

/-- There are comparisons exactly if no change in percent is too large. They may well be of no year
at all, if none has the year before it. -/
theorem exists_rows_iff : (∃ flat, YearlyComparison.rows keyColumns fields yearly = .ok flat) ↔
    InRange keyColumns fields yearly := by
  rw [rows_eq_mapM h.typed, Outcome.exists_mapM_eq_ok_iff, inRange_iff_forall]
  refine forall₂_congr fun p hp => ⟨fun ⟨flat, found⟩ => (compares_of_flatAt h hp found).1, ?_⟩
  intro range
  obtain ⟨flat, found, -⟩ := exists_flatAt h hp range
  exact ⟨flat, found⟩

/-- If one is, all of them are refused. -/
theorem rows_eq_error (large : ¬InRange keyColumns fields yearly) :
    YearlyComparison.rows keyColumns fields yearly = .error .tooLarge := by
  rw [inRange_iff_forall] at large
  rw [rows_eq_mapM h.typed]
  refine Outcome.mapM_eq_error_of_exists (fun p hp e failed => ?_) ?_
  · by_cases range : InRangeAt keyColumns fields yearly p
    · obtain ⟨flat, found, -⟩ := exists_flatAt h hp range
      nomatch found.symm.trans failed
    · exact (Except.error.inj ((flatAt_eq_error h hp range).symm.trans failed)).symm
  · simp only [not_forall] at large
    obtain ⟨p, hp, large⟩ := large
    exact ⟨p, hp, flatAt_eq_error h hp large⟩

end Rows

/-- Where no two rows have one location and year, the order of the rows does not matter. -/
theorem rows_eq_of_perm {shuffled : List Record} (h : Record.Typed keyColumns ["year"] yearly)
    (unique : yearly.Pairwise fun a b =>
      ¬(a.texts keyColumns = b.texts keyColumns ∧ a.year = b.year))
    (perm : shuffled.Perm yearly) :
    YearlyComparison.rows keyColumns fields shuffled =
      YearlyComparison.rows keyColumns fields yearly := by
  have typed : Record.Typed keyColumns ["year"] shuffled :=
    ⟨fun row hrow => h.hasText row (perm.subset hrow),
      fun row hrow => h.hasInt row (perm.subset hrow)⟩
  have apart : yearly.Pairwise fun a b => place keyColumns a ≠ place keyColumns b :=
    unique.imp fun differ same => differ (Prod.mk.inj (toLex_inj.1 same))
  have places : years keyColumns shuffled = years keyColumns yearly :=
    RowKey.placesOf_eq_of_perm perm
  have counts : rowOf keyColumns shuffled = rowOf keyColumns yearly := by
    funext p
    rw [rowOf, rowOf, RowKey.lastAt?_eq_of_perm perm apart]
  have flat : flatAt keyColumns fields shuffled = flatAt keyColumns fields yearly := by
    funext p
    rw [flatAt, flatAt, counts]
  rw [rows_eq_mapM typed, rows_eq_mapM h, joined, joined, places, flat]

/-- Integers of a moderate size are all in range. -/
theorem inRange_of_moderate
    (moderate : ∀ row ∈ yearly, ∀ name ∈ fields, ∀ n ∈ row.int? name, |n| ≤ 2 ^ 900) :
    InRange keyColumns fields yearly := by
  intro location year current base hcurrent hbase name hname c hc b hb nonzero
  have current_mem := List.mem_of_mem_filter (List.mem_of_getLast? hcurrent)
  have base_mem := List.mem_of_mem_filter (List.mem_of_getLast? hbase)
  have room : ((2 ^ 999 : ℕ) : ℚ) ≤ Double.overflow := Nat.cast_le.2 (by decide +kernel)
  calc |percentOf c b| < 2 ^ (999 : ℤ) :=
        abs_percentOf_lt nonzero (abs_sub_le_of_moderate
          (moderate current current_mem name hname c hc) (moderate base base_mem name hname b hb))
    _ ≤ Double.overflow := by exact_mod_cast room

/-- **Comparisons of rows at hand are an inner join with a lag of one year.** There are some exactly
if no change in percent is too large; and where no two rows have one location and year, the order of
the rows does not matter. -/
theorem rows_joins (h : Comparable keyColumns fields yearly) :
    ((∃ flat, YearlyComparison.rows keyColumns fields yearly = .ok flat) ↔
      InRange keyColumns fields yearly) ∧
    (¬InRange keyColumns fields yearly →
      YearlyComparison.rows keyColumns fields yearly = .error .tooLarge) ∧
    (∀ flat, YearlyComparison.rows keyColumns fields yearly = .ok flat →
      Joins keyColumns fields yearly flat) ∧
    (yearly.Pairwise (fun a b => ¬(a.texts keyColumns = b.texts keyColumns ∧ a.year = b.year)) →
      ∀ shuffled : List Record, shuffled.Perm yearly →
        YearlyComparison.rows keyColumns fields shuffled =
          YearlyComparison.rows keyColumns fields yearly) :=
  ⟨exists_rows_iff h, rows_eq_error h, fun _ => joins_of_rows h,
    fun unique _ => rows_eq_of_perm h.typed unique⟩

end Join

/-- The sales of a commune in a year. -/
def salesRow (sales : String × ℤ × ℤ) : Record :=
  [("insee_code", .text sales.1), ("year", .int sales.2.1), ("total_sales", .int sales.2.2)]

theorem comparable_salesRow (sales : List (String × ℤ × ℤ)) :
    Comparable ["insee_code"] ["total_sales"] (sales.map salesRow) where
  typed :=
    { hasText := by
        simp only [List.forall_mem_map, List.forall_mem_singleton]
        exact fun _ _ => ⟨_, rfl⟩
      hasInt := by
        simp only [List.forall_mem_map, List.forall_mem_singleton]
        exact fun _ _ => ⟨_, rfl⟩ }
  counted := by
    simp only [List.forall_mem_map, List.forall_mem_singleton]
    exact fun _ _ => ⟨some _, rfl⟩

/-- Three years of a commune, of which two follow each other. -/
def gapYear : List Record :=
  [("75112", 2024, 120), ("75112", 2021, 90), ("75112", 2023, 100)].map salesRow

theorem rows_joins_gapYear :
    Comparable ["insee_code"] ["total_sales"] gapYear ∧
      (∃ flat, YearlyComparison.rows ["insee_code"] ["total_sales"] gapYear = .ok flat ∧
        Joins ["insee_code"] ["total_sales"] gapYear flat) ∧
      YearlyComparison.rows ["insee_code"] ["total_sales"] gapYear.reverse =
        YearlyComparison.rows ["insee_code"] ["total_sales"] gapYear := by
  have comparable : Comparable ["insee_code"] ["total_sales"] gapYear := comparable_salesRow _
  obtain ⟨computed, -, joins, shuffled⟩ := rows_joins comparable
  have moderate : ∀ row ∈ gapYear, ∀ name ∈ ["total_sales"], ∀ n ∈ row.int? name,
      |n| ≤ 2 ^ 900 := by
    decide +kernel
  obtain ⟨flat, found⟩ := computed.2 (inRange_of_moderate moderate)
  exact ⟨comparable, ⟨flat, found, joins flat found⟩,
    shuffled (by decide +kernel) _ (List.reverse_perm _)⟩

/-- One sale in a year, and more than binary64 can tell in the next. -/
def manySales : List Record := [("75112", 2023, 1), ("75112", 2024, (10 ^ 200) ^ 2)].map salesRow

/-- Years that follow each other may still have no flat row. -/
theorem rows_manySales :
    Comparable ["insee_code"] ["total_sales"] manySales ∧
      (∃ row ∈ manySales, row.texts ["insee_code"] = ["75112"] ∧ row.year = 2024) ∧
      (∃ row ∈ manySales, row.texts ["insee_code"] = ["75112"] ∧ row.year = 2023) ∧
      YearlyComparison.rows ["insee_code"] ["total_sales"] manySales = .error .tooLarge ∧
      ¬∃ flat, YearlyComparison.rows ["insee_code"] ["total_sales"] manySales = .ok flat := by
  have comparable : Comparable ["insee_code"] ["total_sales"] manySales := comparable_salesRow _
  have large : ¬InRange ["insee_code"] ["total_sales"] manySales := by
    intro range
    have change := range ["75112"] 2024 (salesRow ("75112", 2024, (10 ^ 200) ^ 2))
      (salesRow ("75112", 2023, 1)) (by rfl) (by rfl) "total_sales" (List.mem_singleton_self _)
      ((10 ^ 200) ^ 2) rfl 1 rfl one_ne_zero
    have least : (Double.overflow : ℚ) ≤ ((100 * ((10 ^ 200) ^ 2 - 1) : ℕ) : ℚ) :=
      Nat.cast_le.2 (by decide +kernel)
    rw [abs_percentOf, Int.natAbs_one, Nat.cast_one, div_one] at change
    exact absurd change (not_lt.2 least)
  have refused := rows_eq_error comparable large
  refine ⟨comparable, by decide +kernel, by decide +kernel, refused, ?_⟩
  rw [refused]
  nofun

end YearlyComparison

end PropertyMarket
