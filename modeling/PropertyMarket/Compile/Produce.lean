import PropertyMarket.Compile.Filter

/-!
# What groups produce

The labelled terms of a grouped query: the columns it groups by, the aggregates and the named
computations; and the sort keys, which may name any of them.

## Main definitions

* `Produced` — a labelled term
* `MetricSpec.compile`, `Computation.compile`, `Produced.groupBy` — the terms of each kind
* `Computation.label` — the label of a computation
* `SortSpec.compile` — a sort key, by label or by field

## Implementation notes

A grouped query shows labelled terms and can be sorted by any of the labels. The labels are
therefore part of what a group produces, and they are collected before the sort keys are compiled. A
label is made of words of the request, but only of words that have been found in a vocabulary or in
a table, and of written numbers; it is never text of the request as such.
-/

namespace PropertyMarket

/-- A labelled term. The label is the name of the column that comes back. -/
structure Produced where
  label : String
  term : Term

/-- A labelled term as it is shown, always under its label, even where that is the name of the
column. -/
def Produced.output (p : Produced) : Output := ⟨p.term, some p.label⟩

/-- The column of a field that has to be numeric. Whether it is comes before whether the table has
the column. -/
def Field.numericOnTable (table : Table) (family : Family) (operation name : String) :
    Except Fault Column := do
  let field ← Field.resolve family name
  if field.numeric then field.columnOn table
  else .error (.query (.needsNumber operation name))

/-! ### Aggregates

An aggregate is one of five. All of them but the count need a field that is a number; and none of
them is null, since an empty sum or mean is shown as zero. -/

instance : Vocabulary Aggregate where
  title := "Aggregate"
  members := [.count, .sum, .avg, .min, .max]
  word
    | .count => "count"
    | .sum => "sum"
    | .avg => "avg"
    | .min => "min"
    | .max => "max"

/-- The term of an aggregate: a count is exact, anything else is zero for an empty group. -/
def Aggregate.term (a : Aggregate) (argument : Term) : Term :=
  match a with
  | .count => .cast (.aggregate .count argument) .integer
  | a => .coalesce (.aggregate a argument) (.int 0)

namespace MetricSpec

/-- The label of an aggregate: its name and its field, with an underscore between them. -/
def label (m : MetricSpec) : String := m.metric ++ "_" ++ m.field

/-- The labelled term of an aggregate; only counts may be of any field. The name of the aggregate is
looked up before the field. -/
def compile (table : Table) (family : Family) (m : MetricSpec) : Except Fault Produced :=
  match Vocabulary.ofWord? (α := Aggregate) m.metric with
  | none => .error (.query (.unknownAggregate m.metric m.field (Vocabulary.words Aggregate)))
  | some a => do
    let column ←
      if a = .count then Field.onTable table family m.field
      else Field.numericOnTable table family m.metric m.field
    return ⟨m.label, a.term (.ofColumn table column)⟩

end MetricSpec

/-! ### Computations

The two computations that have names: a percentile of a field, and the price of a square metre. The
label of a percentile holds its number, so that two of one field can be told apart; writing it is
all that needs care. -/

namespace Computation

/-- A written number with an underscore for the point. -/
def withoutPoint (text : String) : String :=
  String.ofList (text.toList.map fun c => if c = '.' then '_' else c)

/-- A number of percent in a label: a whole one without places, else with an underscore for the
point, since a point would not go into a name. -/
def percentText (p : Double) : String :=
  match p.toInt? with
  | some n => intText n
  | none => withoutPoint p.toText

/-- The same of a number of any kind, or of a text that denotes one. It counts as whole if the
nearest binary64 number is, and is then written without its places. -/
def percentTextOf (p : Value) : Except Fault String := do
  match p with
  | .text s =>
    match ← Numeral.requireWhole? s with
    | some n => return intText n
    | none => return withoutPoint s
  | p =>
    let x ← p.requireNumber
    let nearest ← x.toDouble.mapError Fault.ofArithmetic
    match x.quotient?, nearest.toInt? with
    | some (num, den), some _ => return intText (num.tdiv den)
    | _, _ => return withoutPoint p.display

/-- The label of a percentile. -/
def percentileLabel (field percent : String) : String := "percentile_" ++ field ++ "_" ++ percent

/-- The label of a computation. The price of a square metre has one label, as it has no
parameters. -/
def label : Computation → String
  | percentile field p => percentileLabel field (percentText p)
  | pricePerArea => "avgPricePerM2"

/-- The sum of prices over the sum of areas, null unless there is an area. The area is cast to its
column's type before the division. -/
def ratio (price area : Term) (areaType : ColumnType) : Term :=
  let total := Term.aggregate .sum area
  .choice (.compare .gt total (.bound (.int 0)))
    (.arithmetic .div (.aggregate .sum price) (.cast total areaType)) none

/-- The labelled term of a computation. A percentile needs a numeric field; the other one names its
fields itself. -/
def compile (table : Table) (family : Family) (c : Computation) : Except Fault Produced :=
  match c with
  | percentile field p => do
    let column ← Field.numericOnTable table family "percentile" field
    return ⟨c.label, .percentile (.double (p / 100)) (.ofColumn table column)⟩
  | pricePerArea => do
    let price ← Field.onTable table family "price"
    let area ← Field.onTable table family "floorArea"
    return ⟨c.label, ratio (.ofColumn table price) (.ofColumn table area) area.type⟩

end Computation

/-! ### Groups

A field that may be grouped by is shown under its own name and grouped by as a term, so that sorting
by it is sorting by a label. -/

/-- The labelled column of a field that may be grouped by; any other field is refused with the ones
that may. -/
def Produced.groupBy (table : Table) (family : Family) (name : String) :
    Except Fault Produced := do
  let field ← Field.resolve family name
  if field.groupable then
    let column ← field.columnOn table
    return ⟨name, .ofColumn table column⟩
  else .error (.query (.notGroupable name (Field.groupableNames family)))

/-! ### Sorts

A sort key names a label of the query or a field of the table, the label first. In a read that is
not grouped there are no labels, and every key is a field. -/

namespace SortSpec

/-- A sort key: a produced label as it is, any other name through the fields. Whether the field is
grouped by is not asked here. -/
def compile (table : Table) (family : Family) (labels : List String) (s : SortSpec) :
    Except Fault SortKey :=
  let order := s.order.getD .asc
  if labels.contains s.field then .ok ⟨.label s.field, order⟩
  else do
    let column ← Field.onTable table family s.field
    return ⟨.term (.ofColumn table column), order⟩

/-- Sort keys, in order; the first one that is unknown is the fault. -/
def compileAll (table : Table) (family : Family) (labels : List String) (specs : List SortSpec) :
    Except Fault (List SortKey) :=
  specs.mapM (compile table family labels)

end SortSpec

end PropertyMarket
