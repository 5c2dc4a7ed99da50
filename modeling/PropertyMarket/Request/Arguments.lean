import PropertyMarket.Request.State

/-!
# Queries over the raw sales

What a query over the raw sales may ask for: columns of single sales, aggregates of groups, or
named computations of groups.

## Main definitions

* `QueryArgs`, `AggregationArgs`, `ComputationArgs` — the three kinds of queries
* `read`, `toRecord` of each — how a query is read and written

## Implementation notes

The three models share most of their fields, with the same keys and readers, and differ in what is
produced. Numbers of rows are any integers here: `Paging` brings them within bounds when the
statement is built. The order of the fields in each reader is the order in which issues are
reported.
-/

namespace PropertyMarket

namespace Key

/-- The field of the fields that are shown. -/
def select : Key := plain "select"

/-- The field of the sort keys. -/
def sort : Key := plain "sort"

/-- The field of the grouping. -/
def groupBy : Key := ⟨"groupBy", "group_by"⟩

/-- The field of the aggregates. -/
def metrics : Key := plain "metrics"

/-- The field of the computations. -/
def computations : Key := plain "computations"

end Key

/-- A query for single sales. All of its parts may be left out, and then it shows the usual fields
of the first sales. -/
structure QueryArgs where
  select : Option (List String) := none
  filters : List Predicate := []
  sort : List SortSpec := []
  limit : Option Int := none
  offset : Option Int := none
  deriving Repr

namespace QueryArgs

/-- Reads a query for single sales, field by field; the issues of all fields are listed. -/
def ofRecord (r : Record) : Checked QueryArgs :=
  QueryArgs.mk <$> Key.select.withDefault none (Reader.nullable (Reader.list Reader.text)) r
    <*> Key.filters.withDefault [] (Reader.list Predicate.read) r
    <*> Key.sort.withDefault [] (Reader.list SortSpec.read) r
    <*> Key.limit.withDefault none (Reader.nullable Reader.int) r
    <*> Key.offset.withDefault none (Reader.nullable Reader.int) r

/-- Reads a query for single sales from a value. -/
def read : Value → Checked QueryArgs := Reader.model "QueryArgs" ofRecord

/-- A query for single sales as a record, with every field, also those that were not given. -/
def toRecord (naming : Naming) (q : QueryArgs) : Record :=
  [(Key.select.name naming, (q.select.map Value.ofTexts).getD .null),
    (Key.filters.name naming, .ofRecords (q.filters.map Predicate.toRecord)),
    (Key.sort.name naming, .ofRecords (q.sort.map SortSpec.toRecord)),
    (Key.limit.name naming, .ofInt? q.limit), (Key.offset.name naming, .ofInt? q.offset)]

end QueryArgs

/-- A query for aggregates of groups of sales. There has to be an aggregate; a query without groups
makes one of all sales. -/
structure AggregationArgs where
  groupBy : List String := []
  metrics : List MetricSpec
  filters : List Predicate := []
  sort : List SortSpec := []
  limit : Option Int := none
  deriving Repr

namespace AggregationArgs

/-- Reads a query for aggregates, field by field. An empty list of aggregates is refused. -/
def ofRecord (r : Record) : Checked AggregationArgs :=
  AggregationArgs.mk <$> Key.groupBy.withDefault [] (Reader.list Reader.text) r
    <*> Key.metrics.required (Reader.nonEmpty MetricSpec.read) r
    <*> Key.filters.withDefault [] (Reader.list Predicate.read) r
    <*> Key.sort.withDefault [] (Reader.list SortSpec.read) r
    <*> Key.limit.withDefault none (Reader.nullable Reader.int) r

/-- Reads a query for aggregates from a value. -/
def read : Value → Checked AggregationArgs := Reader.model "AggregationArgs" ofRecord

/-- A query for aggregates as a record. -/
def toRecord (naming : Naming) (q : AggregationArgs) : Record :=
  [(Key.groupBy.name naming, .ofTexts q.groupBy),
    (Key.metrics.name naming, .ofRecords (q.metrics.map MetricSpec.toRecord)),
    (Key.filters.name naming, .ofRecords (q.filters.map Predicate.toRecord)),
    (Key.sort.name naming, .ofRecords (q.sort.map SortSpec.toRecord)),
    (Key.limit.name naming, .ofInt? q.limit)]

end AggregationArgs

/-- A query for named computations of groups of sales. There has to be a computation. -/
structure ComputationArgs where
  groupBy : List String := []
  computations : List Computation
  filters : List Predicate := []
  sort : List SortSpec := []
  limit : Option Int := none
  deriving Repr

namespace ComputationArgs

/-- Reads a query for computations, field by field. An empty list of computations is refused. -/
def ofRecord (r : Record) : Checked ComputationArgs :=
  ComputationArgs.mk <$> Key.groupBy.withDefault [] (Reader.list Reader.text) r
    <*> Key.computations.required (Reader.nonEmpty Computation.read) r
    <*> Key.filters.withDefault [] (Reader.list Predicate.read) r
    <*> Key.sort.withDefault [] (Reader.list SortSpec.read) r
    <*> Key.limit.withDefault none (Reader.nullable Reader.int) r

/-- Reads a query for computations from a value. -/
def read : Value → Checked ComputationArgs := Reader.model "ComputationArgs" ofRecord

/-- A query for computations as a record. -/
def toRecord (naming : Naming) (q : ComputationArgs) : Record :=
  [(Key.groupBy.name naming, .ofTexts q.groupBy),
    (Key.computations.name naming, .ofRecords (q.computations.map Computation.toRecord)),
    (Key.filters.name naming, .ofRecords (q.filters.map Predicate.toRecord)),
    (Key.sort.name naming, .ofRecords (q.sort.map SortSpec.toRecord)),
    (Key.limit.name naming, .ofInt? q.limit)]

end ComputationArgs

end PropertyMarket
