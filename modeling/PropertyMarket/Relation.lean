import PropertyMarket.Fault
import PropertyMarket.Relation.Table

/-!
# Precomputed relations

For each level, property type and time grain there is a relation that holds the metrics of every
location and period, and from it are derived the comparison of each year with the year before
and the slopes within the latest year.

## Main definitions

* `Relation` — the handle of a precomputed relation
* `Relation.table` — its name and columns
* `Relation.select` — the relation of a combination, if there is one

## Implementation notes

Weekly rollups exist for communes only. Yearly comparisons and slopes have a fixed grain, which
`Relation.select` takes as given.
-/

namespace PropertyMarket

/-- The handle of a precomputed relation. It is a description and not a table: the table is computed
from it. -/
structure Relation where
  family : Family
  level : Level
  type : PropertyType
  grain : TimeGrain
  deriving DecidableEq, Repr

namespace Relation

/-- The name of a relation: property type, location key and period. It is put together from words of
the vocabularies only. -/
def name (r : Relation) : String :=
  let stem := r.type.plural ++ "_by_" ++ r.level.keyColumn ++ "_"
  match r.family with
  | .delta => stem ++ "year_deltas"
  | .slope => stem ++ "month_slopes"
  | .rollup | .transactions => stem ++ Vocabulary.word r.grain

/-- The type of a metric's column. -/
def metricType (name : String) : ColumnType :=
  if Metric.isDoubleName name then .float else .integer

/-- The columns that say where. -/
def locationColumns (level : Level) : List Column :=
  match level with
  | .commune => [⟨"insee_code", .varchar 5, false⟩]
  | .cadastral => [⟨"insee_code", .varchar 5, false⟩, ⟨"section", .varchar 11, false⟩]

/-- The columns that say when. -/
def periodColumns : TimeGrain → List Column
  | .week => [⟨"iso_year", .integer, false⟩, ⟨"iso_week", .integer, false⟩]
  | .year => [⟨"year", .integer, false⟩]
  | .month => [⟨"year", .integer, false⟩, ⟨"month", .integer, false⟩]

/-- The columns of a comparison of one metric. -/
def comparisonColumns (name : String) : List Column :=
  Comparison.parts.map fun part =>
    ⟨part.column name, if part = .percent then .float else metricType name, true⟩

/-- The columns of a relation, in order: where, when, and what is measured. Those of a rollup are
never null; what a comparison computes, and everything in a slope relation behind the location, may
be. -/
def columns (r : Relation) : List Column :=
  locationColumns r.level ++
  match r.family with
  | .delta =>
    [⟨"year", .integer, false⟩, ⟨"base_year", .integer, false⟩] ++
      r.type.measured.flatMap comparisonColumns
  | .slope =>
    ("year" :: "month" :: windowColumns).map (fun name => ⟨name, .integer, true⟩) ++
      r.type.measured.map fun name => ⟨slopeColumn name, .float, true⟩
  | .rollup | .transactions =>
    periodColumns r.grain ++ r.type.measured.map fun name => ⟨name, metricType name, false⟩

/-- A relation as a table: its name and its columns. -/
def table (r : Relation) : Table := ⟨r.name, r.columns⟩

/-! ### Selection

Not every combination of family, level and grain has a relation. `Exists` says which do, and
`select` is the only way to a relation from a combination that comes from a request; the two
families with a fixed grain have constructors of their own, which always give a relation. -/

/-- Is there a relation of the combination? A rollup has every one but the weekly one of sections,
the other two families have one grain each, and the raw sales are no relation at all. -/
def Exists (r : Relation) : Prop :=
  match r.family with
  | .rollup => ¬(r.level = .cadastral ∧ r.grain = .week)
  | .delta => r.grain = .year
  | .slope => r.grain = .month
  | .transactions => False

instance (r : Relation) : Decidable r.Exists := by
  unfold Exists
  split <;> infer_instance

/-- The relation of a combination, if there is one. The fault names all four parts. -/
def select (family : Family) (level : Level) (type : PropertyType) (grain : TimeGrain) :
    Except Fault Relation :=
  let r : Relation := ⟨family, level, type, grain⟩
  if r.Exists then .ok r else .error (.query (.noRelation family level type grain))

/-- The rollup of a combination. -/
def rollup (level : Level) (type : PropertyType) (grain : TimeGrain) : Except Fault Relation :=
  select .rollup level type grain

/-- The comparison of each year with the year before. -/
def delta (level : Level) (type : PropertyType) : Relation := ⟨.delta, level, type, .year⟩

/-- The slopes within the latest year. -/
def slope (level : Level) (type : PropertyType) : Relation := ⟨.slope, level, type, .month⟩

theorem exists_delta (level : Level) (type : PropertyType) : (delta level type).Exists := rfl

theorem exists_slope (level : Level) (type : PropertyType) : (slope level type).Exists := rfl

/-- The word of a vocabulary that a part of a combination names. A value that is no word of it is
refused with the words there are. -/
def part {α : Type} [Vocabulary α] (label : String) (value : Value) : Except Fault α :=
  match Vocabulary.ofValue? value with
  | some a => .ok a
  | none => .error (.query (.unknownWord label value (Vocabulary.words α)))

/-- The relation of a combination that is given by words; level, property type and grain are
looked up in this order. -/
def ofWords (family : Family) (level type grain : Value) : Except Fault Relation := do
  let level ← part "level" level
  let type ← part "propertyType" type
  let grain ← part "timeGrain" grain
  select family level type grain

end Relation

end PropertyMarket
