import PropertyMarket.Request.Reader

/-!
# Fragments of requests

The parts that several requests share: a predicate on a field, a key of a sort, an aggregate, a
named computation, and the filter of a metric.

## Main definitions

* `Predicate`, `SortSpec`, `MetricSpec`, `Computation` — the fragments
* `NumericFilter` — a bound, or two, for a metric
* `toRecord`, `read` of each — how a fragment is written and read

## Implementation notes

A fragment is read as far as its shape goes and no further: whether a field exists, or an operator
takes a value, depends on the table it is compiled for, and is found out there. Only what has no
meaning at all is refused here. Each fragment is written by `toRecord` under the names by which it
is read, so what is written is read back.
-/

namespace PropertyMarket

/-! ### Predicates

A predicate is a field, an operator and a value, all as they were given. -/

/-- What is asked of a field. Operator and value are checked when the predicate is compiled. A
predicate without a value has null for it. -/
structure Predicate where
  field : String
  operator : String
  value : Value := .null
  deriving Repr

namespace Predicate

/-- Reads a predicate. -/
def ofRecord (r : Record) : Checked Predicate :=
  Predicate.mk <$> (Key.plain "field").required Reader.text r
    <*> (Key.plain "operator").required Reader.text r
    <*> (Key.plain "value").withDefault .null Reader.any r

/-- Reads a predicate from a value. -/
def read : Value → Checked Predicate := Reader.model "FilterPredicate" ofRecord

/-- A predicate as a record. -/
def toRecord (p : Predicate) : Record :=
  [("field", .text p.field), ("operator", .text p.operator), ("value", p.value)]

end Predicate

/-! ### Sorts

A key of a sort is a field or a label, with an order that may be left open. -/

/-- A key of a sort; without an order it is ascending. It may name a produced label as well as a
field. -/
structure SortSpec where
  field : String
  order : Option SortOrder := none
  deriving DecidableEq, Repr

namespace SortSpec

/-- Reads a key of a sort. -/
def ofRecord (r : Record) : Checked SortSpec :=
  SortSpec.mk <$> (Key.plain "field").required Reader.text r
    <*> (Key.plain "direction").withDefault none (Reader.nullable (Reader.word SortOrder)) r

/-- Reads a key of a sort from a value. -/
def read : Value → Checked SortSpec := Reader.model "SortSpec" ofRecord

/-- A key of a sort as a record. -/
def toRecord (s : SortSpec) : Record :=
  [("field", .text s.field), ("direction", .ofText? (s.order.map Vocabulary.word))]

end SortSpec

/-! ### Aggregates and computations

An aggregate is named by a word that is looked up later, and a computation by one that decides at
once which other fields it has. -/

/-- An aggregate of a field; its name is checked when it is compiled. The two together make its
label. -/
structure MetricSpec where
  metric : String
  field : String
  deriving DecidableEq, Repr

namespace MetricSpec

/-- Reads an aggregate. -/
def ofRecord (r : Record) : Checked MetricSpec :=
  MetricSpec.mk <$> (Key.plain "metric").required Reader.text r
    <*> (Key.plain "field").required Reader.text r

/-- Reads an aggregate from a value. -/
def read : Value → Checked MetricSpec := Reader.model "MetricSpec" ofRecord

/-- An aggregate as a record. -/
def toRecord (m : MetricSpec) : Record := [("metric", .text m.metric), ("field", .text m.field)]

end MetricSpec

/-- A named computation. The parameters of each are those that its name asks for. -/
inductive Computation where
  /-- The value below which `p` percent of a field lie. -/
  | percentile (field : String) (p : Double)
  /-- The sum of prices over the sum of floor areas. -/
  | pricePerArea
  deriving DecidableEq, Repr

/-- The names of computations. -/
inductive Computation.Tag where
  | percentile
  | pricePerArea
  deriving DecidableEq, Repr

instance : Vocabulary Computation.Tag where
  title := "Computation"
  members := [.percentile, .pricePerArea]
  word
    | .percentile => "percentile"
    | .pricePerArea => "avgPricePerM2"

namespace Computation

/-- A number from 0 to 100; a NaN is not within any bound. The upper bound is looked at first. -/
def readPercent (value : Value) : Checked Double :=
  (Reader.double value).andThen fun p =>
    if !p.le 100 then .refuse (.above 100)
    else if !Double.le 0 p then .refuse (.below 0)
    else .valid p

/-- Reads the name, which has to be a certain one: the one by which the computation was chosen. -/
def readTag (tag : Tag) (value : Value) : Checked Tag :=
  if Vocabulary.ofValue? value = some tag then .valid tag
  else .refuse (.notLiteral [Vocabulary.word tag])

/-- Reads a percentile. -/
def percentileOfRecord (r : Record) : Checked Computation :=
  (fun _ => percentile) <$> (Key.plain "name").required (readTag .percentile) r
    <*> (Key.plain "field").required Reader.text r
    <*> (Key.plain "p").required readPercent r

/-- Reads the price by area. -/
def pricePerAreaOfRecord (r : Record) : Checked Computation :=
  (fun _ => pricePerArea) <$> (Key.plain "name").required (readTag .pricePerArea) r

/-- Reads the computation of a name. -/
def ofRecord (tag : Tag) (r : Record) : Checked Computation :=
  match tag with
  | .percentile => percentileOfRecord r
  | .pricePerArea => pricePerAreaOfRecord r

/-- Reads a computation from a value, by its name. The name decides which fields are read; without
one, or with one that is not known, none of them is. -/
def read : Value → Checked Computation
  | .record r =>
    match Record.get? r "name" with
    | none => .refuse (.untagged "name")
    | some name =>
      match Vocabulary.ofValue? name with
      | some tag => (ofRecord tag r).under (.key (Vocabulary.word tag))
      | none => .refuse (.unknownTag "name" name.display (Vocabulary.words Tag))
  | _ => .refuse .notTagged

/-- The name of a computation. -/
def tag : Computation → Tag
  | percentile .. => .percentile
  | pricePerArea => .pricePerArea

/-- A computation as a record. -/
def toRecord (c : Computation) : Record :=
  ("name", .text (Vocabulary.word c.tag)) ::
  match c with
  | percentile field p => [("field", .text field), ("p", .double p)]
  | pricePerArea => []

end Computation

/-! ### Filters of metrics

A filter of a metric is smaller than a predicate: three operations, and numbers for values. Which
operation goes with how many numbers is part of its type, so the operation of a filter always fits
its value. -/

/-- The operations of a metric's filter. -/
inductive NumericFilter.Operation where
  | gte
  | lte
  | between
  deriving DecidableEq, Repr

instance : Vocabulary NumericFilter.Operation where
  title := "Operation"
  members := [.gte, .lte, .between]
  word
    | .gte => "gte"
    | .lte => "lte"
    | .between => "between"

/-- A bound, or two, for a metric. The constructor is the operation. -/
inductive NumericFilter where
  | atLeast (bound : Amount)
  | atMost (bound : Amount)
  | between (low high : Amount)
  deriving DecidableEq, Repr

namespace NumericFilter

/-- The operation of a filter. -/
def operation : NumericFilter → Operation
  | atLeast _ => .gte
  | atMost _ => .lte
  | between .. => .between

/-- What a filter compares with: one number, or a list of two. -/
def value : NumericFilter → Value
  | atLeast a | atMost a => a.toValue
  | between a b => .list [a.toValue, b.toValue]

/-- A filter as a record. -/
def toRecord (f : NumericFilter) : Record :=
  [("operation", .text (Vocabulary.word f.operation)), ("value", f.value)]

/-- A filter as a predicate on a field. Its operation is one of the operators of predicates under
the same word. -/
def toPredicate (field : String) (f : NumericFilter) : Predicate :=
  ⟨field, Vocabulary.word f.operation, f.value⟩

/-- One amount, or a list of them: what the value of a filter can be before the operation is looked
at. -/
inductive Operand where
  | one (amount : Amount)
  | many (amounts : List Amount)
  deriving DecidableEq, Repr

/-- The place of an operand that is read as a list. -/
def listStep : Issue.Step := .key "list[union[int,float]]"

/-- Reads an operand; if it fits in no way, the issues of all ways are listed, each under the name
of its way. -/
def readOperand (value : Value) : Checked Operand :=
  match Amount.ofValue? value with
  | some a => .valid (.one a)
  | none =>
    match Reader.list Amount.read value with
    | .valid amounts => .valid (.many amounts)
    | .invalid issues => .invalid (Amount.notOne ++ issues.map (Issue.under listStep))

/-- The filter of an operation and an operand that go together. The two refusals are one for each
number of amounts that is asked for. -/
def combine : Operation → Operand → Checked NumericFilter
  | .between, .many [a, b] => .valid (between a b)
  | .between, _ => .refuse (.refused "between requires exactly two numbers")
  | .gte, .one a => .valid (atLeast a)
  | .lte, .one a => .valid (atMost a)
  | o, .many _ => .refuse (.refused (Vocabulary.word o ++ " requires a single number"))

/-- Reads a filter; whether operation and operand go together is asked once both are read. -/
def ofRecord (r : Record) : Checked NumericFilter :=
  (Prod.mk <$> (Key.plain "operation").required (Reader.word Operation) r
    <*> (Key.plain "value").required readOperand r).andThen fun (o, v) => combine o v

/-- Reads a filter from a value. -/
def read : Value → Checked NumericFilter := Reader.model "NumericFilter" ofRecord

end NumericFilter

end PropertyMarket
