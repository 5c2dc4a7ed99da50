import PropertyMarket.Compile.Paging
import PropertyMarket.Compile.Produce
import PropertyMarket.Request.Arguments
import PropertyMarket.Statement.Render

/-!
# The statements of requests

Each request becomes one statement over one table. Conditions come in the order of the request,
and every read of a precomputed relation is sorted last by its location key, so that pages of the
lines of one period do not overlap.

## Main definitions

* `FilterState.statement`, `DeltaParams.statement`, `SlopeParams.statement` — reads of
  precomputed relations
* `QueryArgs.statement`, `AggregationArgs.statement`, `ComputationArgs.statement` — queries over
  the raw sales

## Implementation notes

The reads of precomputed relations share one builder, and so do the two grouped queries; what
differs between the requests of a kind is the predicates, the sort and what is produced. Each
builder compiles its parts in a fixed order, which is the order in which faults are found: sort
before conditions in a read, groups before conditions before sort in a grouped query.
-/

namespace PropertyMarket

/-! ### Reads of precomputed relations

A read shows all columns of one relation. Its predicates are made of the parts of the request, in an
order that is the same for all requests of a family, and go through the same compiler as predicates
that were given; so the places of bound values follow from the request alone. -/

/-- The predicates on locations: codes and identifiers restrict a read if there are any, communes
before sections. -/
def Predicate.locations (inseeCodes sections : List String) : List Predicate :=
  (if inseeCodes = [] then [] else [⟨"inseeCode", "in", .ofTexts inseeCodes⟩]) ++
  (if sections = [] then [] else [⟨"section", "in", .ofTexts sections⟩])

/-- A predicate of equality with an integer, if there is one. -/
def Predicate.equalsInt? (field : String) (value : Option Int) : List Predicate :=
  match value with
  | some n => [⟨field, "=", .int n⟩]
  | none => []

/-- The sorted and filtered rows of a relation; ties are broken by the location key, ascending. The
number of rows and of those skipped are taken as they are, since the request has been checked for
them. -/
def Relation.read (r : Relation) (sortBy : String) (order : SortOrder)
    (predicates : List Predicate) (limit offset : Int) : Except Fault Statement := do
  let table := r.table
  let sort ← SortSpec.compileAll table r.family [] [⟨sortBy, some order⟩, ⟨r.level.keyField, none⟩]
  let conditions ← Predicate.compileAll table r.family predicates
  return {
    outputs := Output.ofTable table
    source := .ofTable table
    conditions, sort
    limit := some limit
    offset := some offset }

/-- The predicates of a read of a rollup: period, locations, then the metric filters. -/
def FilterState.allPredicates (s : FilterState) : List Predicate :=
  Predicate.equalsInt? "year" (some s.year) ++ Predicate.equalsInt? "month" s.month ++
    Predicate.locations s.inseeCodes s.sections ++ s.predicates

/-- The statement of a read of a rollup. The relation is selected first, so a combination that does
not exist is reported before any field. -/
def FilterState.statement (s : FilterState) : Except Fault Statement := do
  let r ← Relation.rollup s.level s.type s.grain
  r.read s.sortBy s.order s.allPredicates s.limit s.offset

/-- The bounds of a yearly comparison, each on the part of the comparison that it limits, in a fixed
order; a bound that is not given is no predicate. -/
def DeltaParams.bounds (p : DeltaParams) : List Predicate :=
  [(p.minCurrent, Comparison.Part.current, "gte"), (p.maxCurrent, .current, "lte"),
    (p.minBase, .base, "gte"), (p.minDelta, .delta, "gte"),
    (p.minPercent, .percent, "gte")].filterMap fun (bound, part, operator) =>
      bound.map fun x => ⟨part.column p.metric, operator, .double x⟩

/-- The predicates of a read of a yearly comparison: locations, years, then the bounds. -/
def DeltaParams.allPredicates (p : DeltaParams) : List Predicate :=
  Predicate.locations p.inseeCodes p.sections ++ Predicate.equalsInt? "year" p.year ++
    Predicate.equalsInt? "base_year" p.baseYear ++ p.bounds

/-- The statement of a read of a yearly comparison, sorted by one part of the comparison of the
chosen metric. -/
def DeltaParams.statement (p : DeltaParams) : Except Fault Statement :=
  (Relation.delta p.level p.type).read (p.sortBy.part.column p.metric) p.order p.allPredicates
    p.limit p.offset

/-- The statement of a read of the slopes, which is restricted by location only. -/
def SlopeParams.statement (p : SlopeParams) : Except Fault Statement :=
  (Relation.slope p.level p.type).read p.sortBy p.order
    (Predicate.locations p.inseeCodes p.sections) p.limit p.offset

/-! ### Queries over the raw sales

Here the request is free to choose fields, and everything it names is looked up. A query for single
sales has a limit and an offset; grouped queries have a limit only. Both are brought within bounds
here, since the readers of these requests let any integer pass. -/

/-- The labelled column of a field of a sale. -/
def Produced.ofSale (name : String) : Except Fault Produced := do
  let column ← Field.onTable .sales .transactions name
  return ⟨name, .ofColumn .sales column⟩

/-- The fields that a query shows. An empty choice is none, and leaves the usual fields. -/
def QueryArgs.shown (q : QueryArgs) : List String :=
  match q.select with
  | none | some [] => Field.shownByDefault
  | some names => names

/-- The statement of a query for single sales, each field under its own name as a label. -/
def QueryArgs.statement (q : QueryArgs) : Except Fault Statement := do
  let shown ← q.shown.mapM Produced.ofSale
  let conditions ← Predicate.compileAll .sales .transactions q.filters
  let sort ← SortSpec.compileAll .sales .transactions [] q.sort
  return {
    outputs := shown.map Produced.output
    source := .ofTable .sales
    conditions, sort
    limit := some (Paging.standard.rows q.limit)
    offset := some (Paging.skipped q.offset) }

/-- A grouped selection of the raw sales: first what it is grouped by and then what is produced,
each under its label. Without groups it is one row. -/
def Statement.grouped (produced : List Produced) (groupBy : List String) (filters : List Predicate)
    (sort : List SortSpec) (limit : Option Int) : Except Fault Statement := do
  let groups ← groupBy.mapM (Produced.groupBy .sales .transactions)
  let shown := groups ++ produced
  let conditions ← Predicate.compileAll .sales .transactions filters
  let sort ← SortSpec.compileAll .sales .transactions (shown.map Produced.label) sort
  return {
    outputs := shown.map Produced.output
    source := .ofTable .sales
    conditions
    groups := groups.map Produced.term
    sort
    limit := some (Paging.standard.rows limit) }

/-- The statement of a query for aggregates. The aggregates are compiled before everything else. -/
def AggregationArgs.statement (q : AggregationArgs) : Except Fault Statement := do
  let produced ← q.metrics.mapM (MetricSpec.compile .sales .transactions)
  Statement.grouped produced q.groupBy q.filters q.sort q.limit

/-- The statement of a query for computations. The computations are compiled before everything
else. -/
def ComputationArgs.statement (q : ComputationArgs) : Except Fault Statement := do
  let produced ← q.computations.mapM (Computation.compile .sales .transactions)
  Statement.grouped produced q.groupBy q.filters q.sort q.limit

end PropertyMarket
