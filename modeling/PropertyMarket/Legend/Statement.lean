import PropertyMarket.Compile.Produce
import PropertyMarket.Legend.Bucket
import PropertyMarket.Legend.Scope

/-!
# The statements of a legend

The store computes a legend by one statement for the statistics of a scope, and one for the
number of values in each bucket.

## Main definitions

* `Legend.Selection` — the source, the conditions and the measured column of a scope
* `Legend.statsStatement` — least, greatest and middle value, their number, and the breaks
* `Legend.countStatement` — the number of values in a bucket

## Implementation notes

In the bucket conditions the column is compared as an exact number, so that a column of integers
and a bound with places meet.

The statements of one scope share their source, their conditions and the measured column, which are
computed once as a `Selection`. The statement for the statistics adds what it shows to it, and the
one for a bucket adds its conditions; so what holds of the rows of a scope holds of every statement
for it.
-/

namespace PropertyMarket

/-- The conditions of a bucket on a term, cast to an exact number: one for each bound that there is,
the upper one closed in the last bucket. The bounds are bound as they are. -/
def Range.conditions (r : Range Value) (term : Term) : Except Fault (List Condition) := do
  let exact := Term.cast term .number
  let bound (c : Comparator) (value : Value) : Except Fault (List Condition) :=
    (c.withValue exact value).map fun condition => [condition]
  let below ← r.lower.elim (.ok []) (bound .ge)
  let above ← r.upper.elim (.ok []) (bound (if r.isLast then .le else .lt))
  return below ++ above

namespace Legend

/-- The source, the conditions and the measured column of a scope. Every statement of a legend is
made of one. -/
structure Selection where
  source : Source
  conditions : List Condition
  metric : Term

/-- The join of a rollup with the outlines of its locations, on the finest key of the level. -/
def outlinesJoin (r : Relation) : Joined × List Condition :=
  let outlines := r.level.outlines.name
  (.table ⟨outlines, none⟩,
    [.compare .eq (.column outlines r.level.keyColumn) (.column r.name r.level.keyColumn)])

/-- The condition that an outline meets the box, its boundary included. -/
def meetsBox (level : Level) (b : Box) : Condition :=
  .intersects (.column level.outlines.name "geom") b.west b.south b.east b.north

/-- The rows of a scope that measure a field. A scope with a box joins the outlines, and no other
one does. -/
def Scope.select (s : Scope) (field : Value) : Except Fault Selection := do
  let r ← s.relation
  let metric := Term.ofColumn r.table (← column r field)
  let equals (name : String) (value : Value) : Condition :=
    Condition.equals (.column r.name name) value
  return {
    source := ⟨⟨r.name, none⟩, s.box.map fun _ => outlinesJoin r⟩
    conditions := [equals "year" s.year, .isNotNull metric] ++
      (s.month?.map (equals "month")).toList ++ (s.code?.map (equals "insee_code")).toList ++
      (s.box.map (meetsBox s.level)).toList
    metric }

/-- The number of values. -/
def countOutput (metric : Term) : Output :=
  ⟨Aggregate.term .count metric, some "count"⟩

/-- The label of a break, counted from one; the reply is read by it. -/
def breakLabel (i : Nat) : String := "break_" ++ intText (i + 1)

/-- The statement for the statistics of a scope, with a break at each fraction. It is one row,
whatever the number of rows in the scope. -/
def statsStatement (s : Scope) (field : Value) (fractions : List Value) :
    Except Fault Statement := do
  let rows ← s.select field
  let breaks := fractions.mapIdx fun i f => ⟨.percentile f rows.metric, some (breakLabel i)⟩
  return {
    outputs := [⟨.aggregate .min rows.metric, some "min"⟩,
      ⟨.aggregate .max rows.metric, some "max"⟩,
      ⟨.percentile (.double Cut.middle.toDouble) rows.metric, some "median"⟩,
      countOutput rows.metric] ++ breaks
    source := rows.source
    conditions := rows.conditions }

/-- The statement for the number of values in a bucket: the rows of the scope, with the bucket's
conditions behind those of the scope. -/
def countStatement (s : Scope) (field : Value) (range : Range Value) :
    Except Fault Statement := do
  let rows ← s.select field
  return {
    outputs := [countOutput rows.metric]
    source := rows.source
    conditions := rows.conditions ++ (← range.conditions rows.metric) }

end Legend

end PropertyMarket
