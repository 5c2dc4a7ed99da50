import PropertyMarket.Relation
import PropertyMarket.Row
import PropertyMarket.Statement
import PropertyMarket.Statistics

/-!
# Slopes within the latest year

For each location the rows of its latest calendar year are kept, and the slope of each metric
over the months of that year is computed, from monthly rows at hand or by the store.

## Main definitions

* `SlopeRow` — the window and the slopes of a location
* `SlopeRow.compute` — the slopes of monthly rows at hand
* `Relation.slopeStatement` — the statement that has the store compute them
* `SlopeRow.ofStored` — a row of a slope relation

## Implementation notes

The window is the latest calendar year, not the latest twelve months: a location whose latest
year has one month has a window of one month, and no slopes. A year that is a NaN is not even the
same as itself, and has an empty window.
-/

namespace PropertyMarket

/-- The window and the slopes of a location. The slopes are of a type of their own, since a computed
slope is a number or nothing, and a stored one is whatever the column holds. -/
structure SlopeRow (σ : Type) where
  inseeCode : Value
  /-- The section; null if there is none. -/
  cadastral : Value
  year : Value
  month : Value
  windowMonths : Value
  windowStartYear : Value
  windowStartMonth : Value
  /-- The slope of each metric, by the metric's name. -/
  slopes : List (String × σ)
  deriving Repr

namespace SlopeRow

/-- A row as a record, with the slopes behind the window. A section that is null has no field in
it. -/
def toRecord {σ : Type} (write : σ → Value) (r : SlopeRow σ) : Record :=
  Record.putAll
    ([("inseeCode", r.inseeCode)] ++
      (if r.cadastral.isNull then [] else [("section", r.cadastral)]) ++
      [("year", r.year), ("month", r.month), ("window_months", r.windowMonths),
        ("window_start_year", r.windowStartYear), ("window_start_month", r.windowStartMonth)])
    (r.slopes.map fun (name, slope) => (slopeColumn name, write slope))

/-- A slope as a value. -/
def slopeValue : Option Double → Value
  | some x => .double x
  | none => .null

/-- The places to which slopes are rounded. -/
def precision : Nat := 6

/-! ### Rows at hand

The rows are grouped by location, the groups put in order, and each group is reduced to the rows of
its latest year. Within those the month and the year give each row a place in time, and a slope is
fitted to the places and the values. The scalars are a parameter, so the same definition computes in
binary64 numbers and in rationals. -/

/-- The rows of each location, in the order of the rows; the locations in the order in which they
are met. -/
def byLocation (keyColumns : List String) (rows : List Record) :
    Except Fault (List (RowKey × List Record)) :=
  rows.foldlM (fun groups row => do
    let key ← RowKey.check (← RowKey.ofRow keyColumns row)
    return RowKey.update key (fun group => group.getD [] ++ [row]) groups) []

/-- The latest year of some rows. Every row has to have a year, and two years have to be
comparable. -/
def latestYear (rows : List Record) : Except Fault Value := do
  match rows with
  | [] => return .null
  | row :: rest =>
    let first ← row.require "year"
    rest.foldlM (fun latest row => do Value.prefer true latest (← row.require "year")) first

/-- The slope of a field within a window, rounded; nothing if the points have no slope. Each row of
the window is a point, its value being null where the column is missing. -/
def slopeOf (α : Type) [Scalar α] (window : List Record) (name : String) :
    Except Fault (Option α) := do
  let points ← window.mapM fun row => do
    return (← monthOrdinal (← row.require "year") (← row.require "month"), row.getD name)
  let slope : Option α ← slopeOfPoints points
  return slope.map (Scalar.roundPlaces precision)

/-- The window and the slopes of a location. The window starts and ends with the first and the last
month that has a row, whatever the order of the rows. -/
def ofGroup (α : Type) [Scalar α] (level : Level) (fields : List String)
    (entry : RowKey × List Record) : Except Fault (SlopeRow (Option α)) := do
  let year ← latestYear entry.2
  let window := entry.2.filter fun row => (row.getD "year").same year
  let months ← window.mapM fun row => row.require "month"
  let slopes ← fields.mapM fun name => do return (name, ← slopeOf α window name)
  return {
    inseeCode := entry.1[0]?.getD .null
    cadastral := if level = .cadastral then entry.1[1]?.getD .null else .null
    year
    month := ← Value.extreme true months
    windowMonths := .int window.length
    windowStartYear := year
    windowStartMonth := ← Value.extreme false months
    slopes }

/-- The slopes of all locations of monthly rows, by location. The first group that fails ends it. -/
def compute (α : Type) [Scalar α] (level : Level) (fields : List String) (rows : List Record) :
    Except Fault (List (SlopeRow (Option α))) := do
  let groups ← RowKey.sort (← byLocation level.keyColumns rows)
  groups.mapM (ofGroup α level fields)

/-! ### Stored rows

A slope relation holds one row for each location, with its window. The row is taken over column by
column. -/

/-- A row of a slope relation; slopes that the row lacks are left out. The location and the window
have to be there, and a slope that is null stays null. -/
def ofStored (r : Relation) (row : Record) : Except Fault (SlopeRow Value) := do
  let inseeCode ← row.require "insee_code"
  let year ← row.require "year"
  let month ← row.require "month"
  let windowMonths ← row.require "window_months"
  let windowStartYear ← row.require "window_start_year"
  let windowStartMonth ← row.require "window_start_month"
  return {
    inseeCode, year, month, windowMonths, windowStartYear, windowStartMonth
    cadastral := if r.level = .cadastral then row.getD "section" else .null
    slopes := r.type.measured.filterMap fun name =>
      (row.get? (slopeColumn name)).map fun slope => (name, slope) }

end SlopeRow

/-! ### The same by the store

The store finds the latest year of each location in a selection of its own, joins the rollup with
it, and fits the slopes over the rows that are left. Missing values are left out by the fit itself.
The slope is rounded as an exact decimal, to the same number of places. -/

namespace Relation

/-- The name of the source that holds the latest year of each location. -/
def latestSource : String := "latest"

/-- The selection of the latest year of each location, one row for each. -/
def latestYears (r : Relation) : Query NamedTable :=
  let keys := r.level.keyColumns.map fun k => (k, Term.column r.name k)
  { outputs := keys.map (fun (k, term) => ⟨term, some k⟩) ++
      [⟨.aggregate .max (.column r.name "year"), some "latest_year"⟩]
    source := ⟨r.name, none⟩
    groups := keys.map (·.2) }

/-- The term of the slope of a field. The place in time is the number of months since the year
zero. -/
def slopeTerm (source name : String) : Term :=
  let ordinal := Term.arithmetic .add
    (.arithmetic .mul (.column source "year") (.bound (.int 12))) (.column source "month")
  .cast (.round (.cast (.slope (.cast (.column source name) .float) (.cast ordinal .float))
    .number) SlopeRow.precision) .float

/-- The statement that computes the slopes of a monthly rollup. Any other relation is refused, since
it has no months to fit. -/
def slopeStatement (r : Relation) : Except Fault Statement :=
  if r.family = .rollup ∧ r.grain = .month then
    let keys := r.level.keyColumns
    let column (name : String) : Term := .column r.name name
    let latest := Term.column latestSource "latest_year"
    .ok {
      outputs := keys.map (fun k => ⟨column k, none⟩) ++
        [⟨.aggregate .max (column "year"), some "year"⟩,
          ⟨.aggregate .max (column "month"), some "month"⟩,
          ⟨.cast .countRows .integer, some "window_months"⟩,
          ⟨.aggregate .max latest, some "window_start_year"⟩,
          ⟨.aggregate .min (column "month"), some "window_start_month"⟩] ++
        r.type.measured.map (fun name => ⟨slopeTerm r.name name, some (slopeColumn name)⟩)
      source := ⟨⟨r.name, none⟩, some (.derived r.latestYears latestSource,
        keys.map fun k => .compare .eq (column k) (.column latestSource k))⟩
      conditions := [.compare .eq (column "year") latest]
      groups := keys.map column }
  else .error (.query (.notMonthly r.name))

end Relation

end PropertyMarket
