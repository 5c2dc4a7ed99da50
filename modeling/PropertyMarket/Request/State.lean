import PropertyMarket.Request.Fragment

/-!
# Reads of precomputed relations

What a read of a rollup, of a yearly comparison and of the slopes may ask for.

## Main definitions

* `FilterState` — a read of a rollup
* `DeltaParams` — a read of a yearly comparison
* `SlopeParams` — a read of the slopes
* `read`, `toRecord` of each — how a request is read and written

## Implementation notes

The three requests have a level, a property type, locations, an order and a page in common, read by
the same readers under the same keys. A request that has been read has its rows within the bounds
and its words in their vocabularies; the names of metrics in a comparison and the sort keys are
texts, which are looked up when the statement is built.
-/

namespace PropertyMarket

/-! ### Shared fields

The keys of the fields, each with the two names under which it may be given, and the readers of the
page. -/

namespace Key

/-- The field of the level. -/
def level : Key := plain "level"

/-- The field of the property type. -/
def propertyType : Key := ⟨"propertyType", "property_type"⟩

/-- The field of the commune codes. -/
def inseeCodes : Key := ⟨"inseeCodes", "insee_codes"⟩

/-- The field of the section identifiers. -/
def sections : Key := plain "sections"

/-- The field of the sort key. -/
def sortBy : Key := ⟨"sortBy", "sort_by"⟩

/-- The field of the sort order. -/
def sortOrder : Key := ⟨"sortOrder", "sort_order"⟩

/-- The field of the greatest number of rows. -/
def limit : Key := plain "limit"

/-- The field of the number of rows that are skipped. -/
def offset : Key := plain "offset"

/-- The field of the year. -/
def year : Key := plain "year"

/-- The field of the month. -/
def month : Key := plain "month"

/-- The field of the filters. -/
def filters : Key := plain "filters"

/-- The field of the first year of a comparison. -/
def baseYear : Key := ⟨"baseYear", "base_year"⟩

/-- The field of the metric that is compared. -/
def metric : Key := plain "metric"

end Key

namespace Reader

/-- The most rows of a read of a precomputed relation. -/
def maxRows : Int := 500

/-- A number of rows: at least one, and no more than a read may return. -/
def rowLimit : Value → Checked Int := intWithin 1 (some maxRows) int

/-- A number of rows that are skipped, with no upper bound. -/
def rowOffset : Value → Checked Int := intWithin 0 none int

end Reader

/-- The rows of a read of a precomputed relation if no other number is asked for. -/
def defaultRows : Int := 200

/-! ### Rollups

A read of a rollup names the period that it is of. The month decides the grain, so a state with a
month reads a monthly rollup. -/

/-- A read of a rollup: which relation, which period and places, which filters, and how it is sorted
and cut into pages. -/
structure FilterState where
  level : Level := .commune
  type : PropertyType := .apartment
  /-- The metric that is shown. -/
  field : String := Metric.preferred
  year : Int := Calendar.latestYear
  month : Option Int := none
  inseeCodes : List String := []
  sections : List String := []
  filters : Option (List (String × NumericFilter)) := none
  sortBy : String := Metric.preferred
  order : SortOrder := .desc
  limit : Int := defaultRows
  offset : Int := 0
  deriving DecidableEq, Repr

namespace FilterState

/-- The name of a metric. It says which metric is shown first and is no part of the statement, so it
is checked here, where no look-up of a column would find it wrong. -/
def readField (value : Value) : Checked String :=
  (Reader.text value).andThen fun name =>
    if Metric.names.contains name then .valid name
    else .refuse (.refused ("unknown metric field " ++ Text.quoted name))

/-- Reads a read of a rollup, field by field; the issues of all fields are listed. -/
def ofRecord (r : Record) : Checked FilterState :=
  FilterState.mk <$> Key.level.withDefault .commune (Reader.member Level) r
    <*> Key.propertyType.withDefault .apartment (Reader.member PropertyType) r
    <*> (Key.plain "field").withDefault Metric.preferred readField r
    <*> Key.year.withDefault Calendar.latestYear Reader.int r
    <*> Key.month.withDefault none (Reader.nullable (Reader.intWithin 1 (some 12) Reader.int)) r
    <*> Key.inseeCodes.withDefault [] (Reader.list Reader.text) r
    <*> Key.sections.withDefault [] (Reader.list Reader.text) r
    <*> Key.filters.withDefault none (Reader.nullable (Reader.named NumericFilter.read)) r
    <*> Key.sortBy.withDefault Metric.preferred Reader.text r
    <*> Key.sortOrder.withDefault .desc (Reader.word SortOrder) r
    <*> Key.limit.withDefault defaultRows Reader.rowLimit r
    <*> Key.offset.withDefault 0 Reader.rowOffset r

/-- Reads a read of a rollup from a value. -/
def read : Value → Checked FilterState := Reader.model "FilterState" ofRecord

/-- Filters as a value. -/
def filtersValue : Option (List (String × NumericFilter)) → Value
  | some filters => .record (filters.map fun (name, f) => (name, .record f.toRecord))
  | none => .null

/-- A read of a rollup as a record in one of the styles of naming, with every field. -/
def toRecord (naming : Naming) (s : FilterState) : Record :=
  [(Key.level.name naming, .ofWord s.level), (Key.propertyType.name naming, .ofWord s.type),
    ("field", .text s.field), (Key.year.name naming, .int s.year),
    (Key.month.name naming, .ofInt? s.month), (Key.inseeCodes.name naming, .ofTexts s.inseeCodes),
    (Key.sections.name naming, .ofTexts s.sections),
    (Key.filters.name naming, filtersValue s.filters), (Key.sortBy.name naming, .text s.sortBy),
    (Key.sortOrder.name naming, .ofWord s.order), (Key.limit.name naming, .int s.limit),
    (Key.offset.name naming, .int s.offset)]

/-- Rows are monthly if a month is asked for, else yearly. -/
def grain (s : FilterState) : TimeGrain := .ofMonth s.month

/-- The filters as predicates, in order. Their names are looked up when the predicates are
compiled. -/
def predicates (s : FilterState) : List Predicate :=
  (s.filters.getD []).map fun (name, f) => f.toPredicate name

end FilterState

/-! ### Yearly comparisons

A read of a yearly comparison is of one metric, by which it is sorted and to whose parts the bounds
belong. The two years are both optional and not checked against each other. -/

/-- What a yearly comparison is sorted by; the rank follows the change in percent, so the two are
the same sort. -/
inductive DeltaSort where
  | percent
  | delta
  | current
  | base
  | rank
  deriving DecidableEq, Repr

instance : Vocabulary DeltaSort where
  title := "DeltaSort"
  members := [.percent, .delta, .current, .base, .rank]
  word
    | .percent => "pct_change"
    | .delta => "delta"
    | .current => "current"
    | .base => "base"
    | .rank => "rank"

/-- The part of a comparison that a sort goes by. -/
def DeltaSort.part : DeltaSort → Comparison.Part
  | .percent | .rank => .percent
  | .delta => .delta
  | .current => .current
  | .base => .base

/-- The metric that is compared if none is named. -/
def DeltaParams.defaultMetric : String := "total_sales"

/-- A read of a yearly comparison: which relation, years and places, which metric with its bounds,
and how it is sorted and cut into pages. -/
structure DeltaParams where
  level : Level := .commune
  type : PropertyType := .apartment
  year : Option Int := none
  baseYear : Option Int := none
  inseeCodes : List String := []
  sections : List String := []
  metric : String := DeltaParams.defaultMetric
  sortBy : DeltaSort := .current
  order : SortOrder := .desc
  minCurrent : Option Double := none
  maxCurrent : Option Double := none
  minBase : Option Double := none
  minDelta : Option Double := none
  minPercent : Option Double := none
  limit : Int := defaultRows
  offset : Int := 0
  deriving DecidableEq, Repr

namespace DeltaParams

/-- The field of the least current value. -/
def minCurrentKey : Key := ⟨"minCurrent", "min_current"⟩

/-- The field of the greatest current value. -/
def maxCurrentKey : Key := ⟨"maxCurrent", "max_current"⟩

/-- The field of the least base value. -/
def minBaseKey : Key := ⟨"minBase", "min_base"⟩

/-- The field of the least difference. -/
def minDeltaKey : Key := ⟨"minDelta", "min_delta"⟩

/-- The field of the least change in percent. -/
def minPercentKey : Key := ⟨"minPctChange", "min_pct_change"⟩

/-- Reads a bound. -/
def readBound (key : Key) (r : Record) : Checked (Option Double) :=
  key.withDefault none (Reader.nullable Reader.double) r

/-- Reads a read of a yearly comparison, field by field; the issues of all fields are listed. -/
def ofRecord (r : Record) : Checked DeltaParams :=
  DeltaParams.mk <$> Key.level.withDefault .commune (Reader.member Level) r
    <*> Key.propertyType.withDefault .apartment (Reader.member PropertyType) r
    <*> Key.year.withDefault none (Reader.nullable Reader.int) r
    <*> Key.baseYear.withDefault none (Reader.nullable Reader.int) r
    <*> Key.inseeCodes.withDefault [] (Reader.list Reader.text) r
    <*> Key.sections.withDefault [] (Reader.list Reader.text) r
    <*> Key.metric.withDefault defaultMetric Reader.text r
    <*> Key.sortBy.withDefault .current (Reader.word DeltaSort) r
    <*> Key.sortOrder.withDefault .desc (Reader.word SortOrder) r
    <*> readBound minCurrentKey r
    <*> readBound maxCurrentKey r
    <*> readBound minBaseKey r
    <*> readBound minDeltaKey r
    <*> readBound minPercentKey r
    <*> Key.limit.withDefault defaultRows Reader.rowLimit r
    <*> Key.offset.withDefault 0 Reader.rowOffset r

/-- Reads a read of a yearly comparison from a value. -/
def read : Value → Checked DeltaParams := Reader.model "DeltaParams" ofRecord

/-- A bound as a value. -/
def boundValue : Option Double → Value
  | some x => .double x
  | none => .null

/-- A read of a yearly comparison as a record in one of the styles of naming, with every field. -/
def toRecord (naming : Naming) (p : DeltaParams) : Record :=
  [(Key.level.name naming, .ofWord p.level), (Key.propertyType.name naming, .ofWord p.type),
    (Key.year.name naming, .ofInt? p.year), (Key.baseYear.name naming, .ofInt? p.baseYear),
    (Key.inseeCodes.name naming, .ofTexts p.inseeCodes),
    (Key.sections.name naming, .ofTexts p.sections), (Key.metric.name naming, .text p.metric),
    (Key.sortBy.name naming, .ofWord p.sortBy), (Key.sortOrder.name naming, .ofWord p.order),
    (minCurrentKey.name naming, boundValue p.minCurrent),
    (maxCurrentKey.name naming, boundValue p.maxCurrent),
    (minBaseKey.name naming, boundValue p.minBase),
    (minDeltaKey.name naming, boundValue p.minDelta),
    (minPercentKey.name naming, boundValue p.minPercent),
    (Key.limit.name naming, .int p.limit), (Key.offset.name naming, .int p.offset)]

end DeltaParams

/-! ### Slopes

A read of the slopes has no period of its own, since the window of each location is its latest year.
-/

/-- A read of the slopes: which relation and places, and how it is sorted and cut into pages. -/
structure SlopeParams where
  level : Level := .commune
  type : PropertyType := .apartment
  inseeCodes : List String := []
  sections : List String := []
  sortBy : String := "inseeCode"
  order : SortOrder := .asc
  limit : Int := defaultRows
  offset : Int := 0
  deriving DecidableEq, Repr

namespace SlopeParams

/-- Reads a read of the slopes, field by field; the issues of all fields are listed. -/
def ofRecord (r : Record) : Checked SlopeParams :=
  SlopeParams.mk <$> Key.level.withDefault .commune (Reader.member Level) r
    <*> Key.propertyType.withDefault .apartment (Reader.member PropertyType) r
    <*> Key.inseeCodes.withDefault [] (Reader.list Reader.text) r
    <*> Key.sections.withDefault [] (Reader.list Reader.text) r
    <*> Key.sortBy.withDefault "inseeCode" Reader.text r
    <*> Key.sortOrder.withDefault .asc (Reader.word SortOrder) r
    <*> Key.limit.withDefault defaultRows Reader.rowLimit r
    <*> Key.offset.withDefault 0 Reader.rowOffset r

/-- Reads a read of the slopes from a value. -/
def read : Value → Checked SlopeParams := Reader.model "SlopeParams" ofRecord

/-- A read of the slopes as a record. -/
def toRecord (naming : Naming) (p : SlopeParams) : Record :=
  [(Key.level.name naming, .ofWord p.level), (Key.propertyType.name naming, .ofWord p.type),
    (Key.inseeCodes.name naming, .ofTexts p.inseeCodes),
    (Key.sections.name naming, .ofTexts p.sections), (Key.sortBy.name naming, .text p.sortBy),
    (Key.sortOrder.name naming, .ofWord p.order), (Key.limit.name naming, .int p.limit),
    (Key.offset.name naming, .int p.offset)]

end SlopeParams

end PropertyMarket
