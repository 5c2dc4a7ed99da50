import PropertyMarket.Relation
import PropertyMarket.Row
import PropertyMarket.Statement
import PropertyMarket.Statistics

/-!
# Yearly comparisons

Each year of a location is compared with the year before. A comparison can be computed from
yearly rows at hand, or by the store as a join of a yearly rollup with itself; a flat row, with
one column for each part of each comparison, can be reshaped into nested records.

## Main definitions

* `YearlyComparison.rows` — the flat rows of the comparisons of yearly rows
* `Relation.comparisonStatement` — the statement that has the store compute them
* `DeltaRow` — a row with nested comparisons; `DeltaRow.ofFlat`, `DeltaRow.toRecord`

## Implementation notes

Only a year whose preceding year is at hand is compared. Of several rows of one location and
year the last one counts.
-/

namespace PropertyMarket

namespace YearlyComparison

/-! ### Comparing rows at hand

The rows are put in order by location and year, and each is joined with the row of the year before.
A row without one is no comparison and is dropped; nothing else is. Both the index and the order go
by `RowKey`, so keys are compared by what they denote. -/

/-- The flat columns of the comparison of one field. A column that a row lacks is null, and the
change from or to null is null. -/
def flatField (base current : Record) (name : String) : Except Fault Record := do
  let b := base.getD name
  let c := current.getD name
  let d ← difference c b
  let p ← percentChange c b
  return [(Comparison.Part.base.column name, b), (Comparison.Part.current.column name, c),
    (Comparison.Part.delta.column name, d), (Comparison.Part.percent.column name, p)]

/-- The flat row of a year and the year before: the location, the two years, and four columns for
each field. -/
def flatRow (keyColumns : List String) (key : RowKey) (year baseYear : Value)
    (fields : List String) (base current : Record) : Except Fault Record := do
  let start := (Record.putAll [] (keyColumns.zip key)).putAll
    [("year", year), ("base_year", baseYear)]
  let parts ← fields.mapM (flatField base current)
  return start.putAll parts.flatten

/-- The year before a year. The year has to be a number, and a truth value is one. -/
def yearBefore (year : Value) : Except Fault Value := do
  let y ← year.requireNumber
  return (← (y.sub (.int 1)).mapError Fault.ofArithmetic).toValue

/-- Each row by location and year; of several with one key the last one, at the place of the
first. -/
def byYear (keyColumns : List String) (rows : List Record) :
    Except Fault (List (RowKey × Record)) :=
  rows.foldlM (fun entries row => do
    let key ← RowKey.ofRow keyColumns row
    let key ← RowKey.check (key ++ [← row.require "year"])
    return RowKey.update key (fun _ => row) entries) []

/-- The comparison of a location in a year, if the year before is at hand. The key ends with the
year, so the key that is looked up differs from it in its last value only. -/
def compareEntry (keyColumns fields : List String) (entries : List (RowKey × Record))
    (entry : RowKey × Record) : Except Fault (Option Record) := do
  let key := entry.1.dropLast
  let year := entry.1.getLast?.getD .null
  let baseYear ← yearBefore year
  match RowKey.find? (key ++ [baseYear]) entries with
  | none => return none
  | some base => return some (← flatRow keyColumns key year baseYear fields base entry.2)

/-- The flat rows of all comparisons, by location and year. The columns come in the order of the
fields, for every row alike. -/
def rows (keyColumns fields : List String) (yearly : List Record) :
    Except Fault (List Record) := do
  let entries ← byYear keyColumns yearly
  let sorted ← RowKey.sort entries
  let found ← sorted.mapM (compareEntry keyColumns fields entries)
  return found.filterMap id

end YearlyComparison

/-! ### The same by the store

The store computes the comparison as a join of the rollup with itself. Every part of a comparison is
a term over the two rows; the change in percent is computed in exact decimals and rounded there, to
two places, before it becomes a binary64 number. -/

namespace Relation

/-- The term of a change in percent: null without a base, and from a base of zero. A missing current
value needs no case, since the difference is then null. -/
def percentTerm (base difference : Term) : Term :=
  let exact := Term.cast base .number
  .choice (.either (.isNull base) (.compare .eq base (.bound (.int 0)))) .null
    (some (.cast (.round (.arithmetic .div
      (.arithmetic .mul (.cast difference .number) (.bound (.int 100)))
      (.cast exact .number)) 2) .float))

/-- What is shown of the comparison of one field: the four parts, under the names of their
columns. -/
def comparisonOutputs (name : String) : List Output :=
  let base := Term.column "base" name
  let current := Term.column "current" name
  let difference := Term.arithmetic .sub current base
  [⟨base, some (Comparison.Part.base.column name)⟩,
    ⟨current, some (Comparison.Part.current.column name)⟩,
    ⟨difference, some (Comparison.Part.delta.column name)⟩,
    ⟨percentTerm base difference, some (Comparison.Part.percent.column name)⟩]

/-- The statement that compares each year of a yearly rollup with the year before. Any other
relation is refused, since it has no years to compare. -/
def comparisonStatement (r : Relation) : Except Fault Statement :=
  if r.family = .rollup ∧ r.grain = .year then
    let keys := r.level.keyColumns
    let year (source : String) : Term := .column source "year"
    .ok {
      outputs := keys.map (fun k => ⟨.column "current" k, none⟩) ++
        [⟨year "current", some "year"⟩, ⟨year "base", some "base_year"⟩] ++
        r.type.measured.flatMap comparisonOutputs
      source := ⟨⟨r.name, some "current"⟩, some (.table ⟨r.name, some "base"⟩,
        keys.map (fun k => .compare .eq (.column "current" k) (.column "base" k)) ++
          [.compare .eq (year "current")
            (.arithmetic .add (year "base") (.bound (.int 1)))])⟩ }
  else .error (.query (.notYearly r.name))

end Relation

/-! ### Nested rows

A flat row has a column for each part of each comparison, and a nested one has a record for each
comparison. The reshaping takes the columns of the relation and no others; a column that is missing
becomes null, and only the key has to be there. -/

/-- The comparison of one field: the two values, their difference, and the change in percent. -/
structure MetricDelta where
  base : Value
  current : Value
  delta : Value
  percent : Value
  deriving Repr

namespace MetricDelta

/-- The part of a comparison. -/
def part (d : MetricDelta) : Comparison.Part → Value
  | .base => d.base
  | .current => d.current
  | .delta => d.delta
  | .percent => d.percent

/-- The comparison of a field in a flat row; what is missing is null, in each part by itself. -/
def ofFlat (row : Record) (name : String) : MetricDelta :=
  let part (p : Comparison.Part) : Value := row.getD (p.column name)
  ⟨part .base, part .current, part .delta, part .percent⟩

/-- A comparison as a record. -/
def toRecord (d : MetricDelta) : Record :=
  Comparison.parts.map fun p => (Vocabulary.word p, d.part p)

end MetricDelta

/-- A row with nested comparisons: the location and the two years, then the metrics, and the
composition counts in a record of their own. -/
structure DeltaRow where
  inseeCode : Value
  year : Value
  baseYear : Value
  /-- The section; null if there is none. -/
  cadastral : Value
  metrics : List (String × MetricDelta)
  /-- The composition counts, under the name of their record, if the row carries any. -/
  composition : Option (String × List (String × MetricDelta))
  deriving Repr

namespace DeltaRow

/-- Does a flat row carry composition counts of the property type? One column is enough, and it is
looked for under the name of the current value. -/
def carriesComposition (type : PropertyType) (row : Record) : Bool :=
  type.composition.any fun name => row.has (Comparison.Part.current.column name)

/-- The comparisons of some fields in a flat row. -/
def comparisons (row : Record) (names : List String) : List (String × MetricDelta) :=
  names.map fun name => (name, MetricDelta.ofFlat row name)

/-- A flat row of a relation, reshaped. The key has to be there; the section is taken over only
where the relation has one. -/
def ofFlat (r : Relation) (row : Record) : Except Fault DeltaRow := do
  let inseeCode ← row.require "insee_code"
  let year ← row.require "year"
  let baseYear ← row.require "base_year"
  return {
    inseeCode, year, baseYear
    cadastral := if r.level = .cadastral then row.getD "section" else .null
    metrics := comparisons row Metric.names
    composition :=
      if carriesComposition r.type row then
        some (r.type.plural, comparisons row r.type.composition)
      else none }

/-- Named comparisons as a record. -/
def nested (comparisons : List (String × MetricDelta)) : Record :=
  comparisons.map fun (name, d) => (name, .record d.toRecord)

/-- A row as a record. A section or composition counts that are not there have no field in it. -/
def toRecord (d : DeltaRow) : Record :=
  [("inseeCode", d.inseeCode), ("year", d.year), ("base_year", d.baseYear)] ++
  (if d.cadastral.isNull then [] else [("section", d.cadastral)]) ++ nested d.metrics ++
  match d.composition with
  | some (name, counts) => [(name, .record (nested counts))]
  | none => []

end DeltaRow

end PropertyMarket
