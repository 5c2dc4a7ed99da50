import PropertyMarket.Field
import PropertyMarket.Request.State
import PropertyMarket.Statistics

/-!
# The scope of a legend

A legend is computed over the rows of one rollup: those of a year, perhaps of a month, perhaps of
one commune, perhaps within a bounding box.

## Main definitions

* `Box` — a bounding box; `Box.ofValue`
* `Legend.Scope` — which rows a legend is made of
* `Legend.Scope.ofRecord`, `Legend.Scope.ofState` — a scope by its parts, or after a filter state

## Implementation notes

Year, month and code are kept as they are given: they are compared with stored values, never
computed with.

A scope says which relation the rows come from and which of its rows count. Both are functions of
the same few parts, so a scope with a month is at once monthly and restricted to that month.
-/

namespace PropertyMarket

/-! ### Boxes

A box is four numbers. Their order is west, south, east, north, and nothing is asked about which of
them are greater. -/

/-- A bounding box, in degrees of longitude and latitude. -/
structure Box where
  west : Double
  south : Double
  east : Double
  north : Double
  deriving DecidableEq, Repr

namespace Box

/-- The box of a collection of four sides; each side is converted to a number. Another number of
sides is refused, and a side that is no number is a fault of its conversion. -/
def ofValue (value : Value) : Except Fault Box := do
  match ← value.requireItems with
  | [west, south, east, north] =>
    return ⟨← west.toScalar, ← south.toScalar, ← east.toScalar, ← north.toScalar⟩
  | _ => .error (.query .malformedBox)

/-- The box that a value stands for, unless it is null. -/
def ofValue? : Value → Except Fault (Option Box)
  | .null => .ok none
  | value => (ofValue value).map some

/-- The sides in order. -/
def sides (b : Box) : List Double := [b.west, b.south, b.east, b.north]

end Box

/-! ### Scopes

The parts of a scope have usual values, and a scope can be made of named parts or after a filter
state. It restricts rows by equality, and where it has a box by their outlines. -/

/-- Which rows a legend is made of: those of one rollup, in a year, and perhaps of a month, a
commune, or a box. -/
structure Legend.Scope where
  level : Level := .commune
  type : PropertyType := .apartment
  year : Value := .int Calendar.latestYear
  /-- The month, if the legend is made of monthly rows. -/
  month : Value := .null
  /-- The commune that a legend of sections is restricted to; nothing if it is empty. -/
  inseeCode : Value := .null
  box : Option Box := none
  deriving Repr

namespace Legend.Scope

/-- The grain is the month if there is one, else the year. -/
def grain (s : Scope) : TimeGrain := if s.month.isNull then .year else .month

/-- The rollup that the scope is taken from. Weekly rollups are in no scope. -/
def relation (s : Scope) : Except Fault Relation := Relation.rollup s.level s.type s.grain

/-- The code that rows are restricted to, if there is one. A legend of communes is never restricted
to one. -/
def code? (s : Scope) : Option Value :=
  if s.level = .cadastral && s.inseeCode.truthy then some s.inseeCode else none

/-- The month that rows are restricted to, if there is one. -/
def month? (s : Scope) : Option Value := if s.month.isNull then none else some s.month

/-- The names of the parts of a scope. -/
def partNames : List String :=
  ["level", "property_type", "year", "month", "insee_code", "bbox"]

/-- The scope of named parts; what is missing is taken from the usual scope. A part that a scope
does not have is a fault before the others are looked at. -/
def ofRecord (r : Record) : Except Fault Scope :=
  if r.names.all partNames.contains then do
    let usual : Scope := {}
    let part (name : String) (standard : Value) : Value := (r.get? name).getD standard
    let level ← Vocabulary.require (part "level" (.ofWord usual.level))
    let type ← Vocabulary.require (part "property_type" (.ofWord usual.type))
    return {
      level, type
      year := part "year" usual.year
      month := part "month" usual.month
      inseeCode := part "insee_code" usual.inseeCode
      box := ← Box.ofValue? (part "bbox" .null) }
  else .error .incompatible

/-- The scope of the rows that a filter state asks for. The filters of the state play no part in
it. -/
def ofState (s : FilterState) (box inseeCode : Value) : Except Fault Scope := do
  return {
    level := s.level
    type := s.type
    year := .int s.year
    month := .ofInt? s.month
    inseeCode
    box := ← Box.ofValue? box }

/-- A scope as a record. -/
def toRecord (s : Scope) : Record :=
  [("level", .ofWord s.level), ("property_type", .ofWord s.type), ("year", s.year),
    ("month", s.month), ("insee_code", s.inseeCode),
    ("bbox", match s.box with
      | some b => .list (b.sides.map Value.double)
      | none => .null),
    ("time_grain", .ofWord s.grain)]

end Legend.Scope

/-! ### Fields of legends

Legends are made of what a rollup measures. Any other field of it, a year for instance, is known and
still refused. -/

/-- The column of a field of which legends are made. An unknown field is another fault than one that
is no metric. -/
def Legend.column (r : Relation) (field : Value) : Except Fault Column := do
  let f ← Field.ofValue .rollup field
  if f.kind = .metric ∨ f.kind = .composition then f.columnOn r.table
  else .error (.query (.notMetric f.name))

end PropertyMarket
