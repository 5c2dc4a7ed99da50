import PropertyMarket.Catalog.Vocabulary

/-!
# The catalog of metrics and dimensions

Every relation is laid out after one catalog: what is measured for a location and a period, and
the keys by which it is looked up.

## Main definitions

* `Metric.catalog` — the sixteen metrics in column order
* `PropertyType.composition` — the counts by number of rooms that a property type carries
* `Dimension.catalog` — the keys of a row
* `Calendar.years`, `Calendar.months` — the periods that are covered

## Implementation notes

The catalog is data: lists in the order in which columns are laid out and names are offered. What
other modules need of it, they compute from the lists, so a metric is added in one line, and the
tables of fields, the relations, the prompts and the statements follow. Facts about the catalog are
decided by evaluation, since all lists are short and closed.
-/

namespace PropertyMarket

/-! ### Metrics

Sixteen figures of a location and a period. Counts and sums are stored as integers or in double
precision as the catalog says; a rollup holds all of them, whatever the property type. -/

/-- What a metric is about. -/
inductive Metric.Group where
  | volume
  | pricing
  | area
  deriving DecidableEq, Repr

instance : Vocabulary Metric.Group where
  title := "MetricGroup"
  members := [.volume, .pricing, .area]
  word
    | .volume => "volume"
    | .pricing => "pricing"
    | .area => "area"

/-- Whether a metric counts or measures. -/
inductive Metric.Kind where
  | count
  | measure
  deriving DecidableEq, Repr

instance : Vocabulary Metric.Kind where
  title := "MetricType"
  members := [.count, .measure]
  word
    | .count => "count"
    | .measure => "measure"

/-- A metric of a location in a period: its name, which is the name of its column too, how it is
shown, and how it is stored. -/
structure Metric where
  name : String
  label : String
  group : Metric.Group
  kind : Metric.Kind
  unit : Option String
  /-- Is it stored in double precision? Otherwise it is an integer. -/
  isDouble : Bool
  deriving DecidableEq, Repr

namespace Metric

/-- The metrics, in the order of their columns. The names come from here only. -/
def catalog : List Metric := [
  ⟨"total_sales", "N° Sales", .volume, .count, none, false⟩,
  ⟨"total_price", "Total price", .volume, .measure, some "€", true⟩,
  ⟨"avg_price", "Avg price", .pricing, .measure, some "€", true⟩,
  ⟨"total_area", "Total area", .area, .measure, some "m²", false⟩,
  ⟨"avg_area", "Avg area", .area, .measure, some "m²", false⟩,
  ⟨"avg_price_m2", "Avg price/m²", .pricing, .measure, some "€/m²", true⟩,
  ⟨"min_price", "Min price", .pricing, .measure, some "€", false⟩,
  ⟨"max_price", "Max price", .pricing, .measure, some "€", false⟩,
  ⟨"median_price", "Median price", .pricing, .measure, some "€", true⟩,
  ⟨"median_area", "Median area", .area, .measure, some "m²", false⟩,
  ⟨"min_price_m2", "Min price/m²", .pricing, .measure, some "€/m²", false⟩,
  ⟨"max_price_m2", "Max price/m²", .pricing, .measure, some "€/m²", false⟩,
  ⟨"price_m2_p25", "Price/m² P25", .pricing, .measure, some "€/m²", true⟩,
  ⟨"price_m2_p75", "Price/m² P75", .pricing, .measure, some "€/m²", true⟩,
  ⟨"price_m2_iqr", "Price/m² IQR", .pricing, .measure, some "€/m²", true⟩,
  ⟨"price_m2_stddev", "Price/m² std dev", .pricing, .measure, some "€/m²", true⟩]

/-- The names of the metrics, in the order of their columns. -/
def names : List String := catalog.map name

/-- The metric of a name, if it has one. -/
def ofName? (name : String) : Option Metric := catalog.find? fun m => m.name == name

/-- Is the metric of a name stored in double precision? -/
def isDoubleName (name : String) : Bool := catalog.any fun m => m.name == name && m.isDouble

/-- The metrics that a rollup may be sorted by unless another key is asked for. They are the ones
that an intent may name for it. -/
def sortable : List String := ["total_sales", "avg_price_m2", "total_price", "avg_price"]

/-- The metric that is shown and sorted by if none is named: the average price of a square metre. -/
def preferred : String := "avg_price_m2"

end Metric

/-! ### Composition

Beside the metrics a relation counts the units that were sold by their number of rooms, for its own
property type only. The counts have different names for the two types, so that a name says which
type it is of. -/

namespace PropertyType

/-- The plural, which names relations and nested records. -/
def plural : PropertyType → String
  | .apartment => "apartments"
  | .house => "houses"

/-- The number of sales and the numbers by rooms, from one room to five and more. -/
def composition : PropertyType → List String
  | .apartment => ["total_apartments", "apartment_1_room", "apartment_2_room", "apartment_3_room",
      "apartment_4_room", "apartment_5_room"]
  | .house => ["total_houses", "house_1_room", "house_2_room", "house_3_room", "house_4_room",
      "house_5_room"]

/-- Everything that a relation of the property type holds for a location and a period. -/
def measured (type : PropertyType) : List String := Metric.names ++ type.composition

end PropertyType

/-- The composition counts of all property types. -/
def compositionNames : List String := PropertyType.apartment.composition ++
  PropertyType.house.composition

/-! ### Dimensions

The keys by which a row is looked up, the ones of place before the ones of time. A relation has the
keys of its level and of its grain. -/

/-- Whether a dimension says where or when. -/
inductive Dimension.Kind where
  | spatial
  | temporal
  deriving DecidableEq, Repr

instance : Vocabulary Dimension.Kind where
  title := "DimensionType"
  members := [.spatial, .temporal]
  word
    | .spatial => "spatial"
    | .temporal => "temporal"

/-- A key of a row, with its name in requests and its column in tables. -/
structure Dimension where
  name : String
  column : String
  label : String
  kind : Dimension.Kind
  deriving DecidableEq, Repr

namespace Dimension

/-- The dimensions, in order, each with its column. -/
def catalog : List Dimension := [
  ⟨"inseeCode", "insee_code", "Commune", .spatial⟩,
  ⟨"section", "section", "Section", .spatial⟩,
  ⟨"year", "year", "Year", .temporal⟩,
  ⟨"month", "month", "Month", .temporal⟩,
  ⟨"iso_year", "iso_year", "ISO year", .temporal⟩,
  ⟨"iso_week", "iso_week", "ISO week", .temporal⟩]

/-- The names of the dimensions, in order. -/
def names : List String := catalog.map name

/-- The dimension of a name. -/
def ofName? (name : String) : Option Dimension := catalog.find? fun d => d.name == name

end Dimension

/-! ### Periods

The years are the ones that the published sales cover, written out as a list; a test whether a value
is one is a look-up in it, and a number of another kind is none. -/

namespace Calendar

/-- The first year that is covered. -/
def firstYear : Int := 2014

/-- The latest year that is covered. -/
def latestYear : Int := 2024

/-- The years that are covered, in order and without a gap. -/
def years : List Int := [2014, 2015, 2016, 2017, 2018, 2019, 2020, 2021, 2022, 2023, 2024]

/-- The months of a year. -/
def months : List Int := [1, 2, 3, 4, 5, 6, 7, 8, 9, 10, 11, 12]

/-- The weeks of a year, of which some years have one more than others. -/
def weeks : List Int := (List.range 53).map fun (n : Nat) => (n : Int) + 1

/-- Is the value a year that is covered? Only an integer can be one. -/
def isYear : Value → Bool
  | .int n => years.contains n
  | _ => false

/-- Is the value a month? -/
def isMonth : Value → Bool
  | .int n => months.contains n
  | _ => false

end Calendar

/-! ### Suffixes

The columns of derived relations are named after the metric they derive from, with a suffix for what
is derived. The names are computed, so that a metric has its derived columns as soon as it is in the
catalog. -/

/-- What a yearly comparison holds of each metric: the value of the year before, that of the year,
their difference, and the change in percent. -/
inductive Comparison.Part where
  | base
  | current
  | delta
  | percent
  deriving DecidableEq, Repr

instance : Vocabulary Comparison.Part where
  title := "DeltaPart"
  members := [.base, .current, .delta, .percent]
  word
    | .base => "base"
    | .current => "current"
    | .delta => "delta"
    | .percent => "pct_change"

/-- The column of a part of a metric's comparison. -/
def Comparison.Part.column (part : Comparison.Part) (name : String) : String :=
  name ++ "_" ++ Vocabulary.word part

/-- The parts, in the order of their columns, which is that of their vocabulary. -/
def Comparison.parts : List Comparison.Part := Vocabulary.members

/-- The column of a metric's slope. -/
def slopeColumn (name : String) : String := name ++ "_slope"

/-- What a slope relation says of the window of months that it covers. -/
def windowColumns : List String := ["window_months", "window_start_year", "window_start_month"]

end PropertyMarket
