import PropertyMarket.Operation
import PropertyMarket.Proofs.Reads

/-!
# One request, one statement

Reads of precomputed relations and operations over the raw sales become statements along the same
lines: one table, its columns or what is computed of them, one condition for each predicate, the
sort keys, and a page. This module says so of all of them at once.

## Main definitions

* `Request` — a read of a precomputed relation, or an operation over the raw sales
* `Request.table`, `Request.predicates`, … — the parts of a request
* `Request.Built` — a statement is put together of the parts of a request

## Main results

* `Request.built_of_statement` — the statement of a request is put together of its parts

## Implementation notes

Each kind of request is compiled by a function of its own, and these differ in what they show and
agree in everything else. Instead of proving a property once for each, the parts of a request are
named here, and `Request.Built` says how a statement is put together from them. Other modules start
from this description, and never unfold the compilation of a request.
-/

namespace PropertyMarket

/-- A request that becomes one statement over one table. Requests for legends are not among them,
since their statements have a shape of their own. -/
inductive Request where
  | rollup (s : FilterState)
  | delta (p : DeltaParams)
  | slope (p : SlopeParams)
  | sales (o : Operation)

namespace Request

/-- The statement of a request. -/
def statement : Request → Except Fault Statement
  | rollup s => s.statement
  | delta p => p.statement
  | slope p => p.statement
  | sales o => o.statement

/-! ### The parts of a request

Each part is a function of the request alone. A read of a precomputed relation shows all columns and
groups by nothing, and an operation over the raw sales shows what it labels. -/

/-- The relation that is read, unless it is the raw sales. -/
def relation? : Request → Option Relation
  | rollup s => some s.relation
  | delta p => some (.delta p.level p.type)
  | slope p => some (.slope p.level p.type)
  | sales _ => none

/-- The table that is read: that of the relation, or the raw sales. -/
def table (r : Request) : Table := r.relation?.elim .sales Relation.table

/-- The family whose fields a request may name. -/
def family (r : Request) : Family := r.relation?.elim .transactions Relation.family

/-- The predicates, in order, as they are compiled: those that the request is given, or those made
of its parts. -/
def predicates : Request → List Predicate
  | rollup s => s.allPredicates
  | delta p => p.allPredicates
  | slope p => Predicate.locations p.inseeCodes p.sections
  | sales (.query q) => q.filters
  | sales (.aggregate q) => q.filters
  | sales (.calculate q) => q.filters

/-- The fields that are grouped by. -/
def groupBy : Request → List String
  | sales (.aggregate q) => q.groupBy
  | sales (.calculate q) => q.groupBy
  | _ => []

/-- What is shown besides the grouped fields, under labels. -/
def produced : Request → Except Fault (List Produced)
  | sales (.query q) => q.shown.mapM Produced.ofSale
  | sales (.aggregate q) => q.metrics.mapM (MetricSpec.compile .sales .transactions)
  | sales (.calculate q) => q.computations.mapM (Computation.compile .sales .transactions)
  | _ => .ok []

/-- What is shown: all columns of a precomputed relation, or what is labelled. -/
def outputs (r : Request) (shown : List Produced) : List Output :=
  r.relation?.elim (shown.map Produced.output) fun relation => Output.ofTable relation.table

/-- The sort keys of a request; a read of a precomputed relation ends with the location key. -/
def sort : Request → List SortSpec
  | rollup s => [⟨s.sortBy, some s.order⟩, ⟨s.level.keyField, none⟩]
  | delta p => [⟨p.sortBy.part.column p.metric, some p.order⟩, ⟨p.level.keyField, none⟩]
  | slope p => [⟨p.sortBy, some p.order⟩, ⟨p.level.keyField, none⟩]
  | sales (.query q) => q.sort
  | sales (.aggregate q) => q.sort
  | sales (.calculate q) => q.sort

/-- The labels that sort keys may name. -/
def labels (r : Request) (shown : List Produced) : List String :=
  match r with
  | sales (.aggregate _) | sales (.calculate _) => shown.map Produced.label
  | _ => []

/-- How many rows are returned. -/
def limit : Request → Int
  | rollup s => s.limit
  | delta p => p.limit
  | slope p => p.limit
  | sales (.query q) => Paging.standard.rows q.limit
  | sales (.aggregate q) => Paging.standard.rows q.limit
  | sales (.calculate q) => Paging.standard.rows q.limit

/-- How many rows are skipped, where rows can be. -/
def offset : Request → Option Int
  | rollup s => some s.offset
  | delta p => some p.offset
  | slope p => some p.offset
  | sales (.query q) => some (Paging.skipped q.offset)
  | _ => none

/-! ### Putting the parts together

What is needed of a statement, in terms of the parts: what it shows and in which order, where it
reads from, its conditions, its groups, its sort keys and its page. -/

/-- A statement is put together of the parts of a request. The groups and what is produced are
named, since they occur in several parts. -/
structure Built (r : Request) (q : Statement) (groups produced : List Produced) : Prop where
  groupBy_eq : r.groupBy.mapM (Produced.groupBy r.table r.family) = .ok groups
  produced_eq : r.produced = .ok produced
  outputs_eq : q.outputs = r.outputs (groups ++ produced)
  source_eq : q.source = .ofTable r.table
  conditions_eq : Predicate.compileAll r.table r.family r.predicates = .ok q.conditions
  groups_eq : q.groups = groups.map Produced.term
  sort_eq : SortSpec.compileAll r.table r.family (r.labels (groups ++ produced)) r.sort =
    .ok q.sort
  limit_eq : q.limit = some r.limit
  offset_eq : q.offset = r.offset

variable {r : Request} {q : Statement} {groups produced : List Produced}

/-- What is shown is labelled, or is a column of the precomputed relation that is read. -/
theorem Built.output_cases (built : r.Built q groups produced) {o : Output} (ho : o ∈ q.outputs) :
    (∃ p ∈ groups ++ produced, o = p.output) ∨
      ∃ relation, r.relation? = some relation ∧ o ∈ Output.ofTable relation.table := by
  rw [built.outputs_eq, outputs] at ho
  cases hr : r.relation? with
  | none =>
    rw [hr] at ho
    obtain ⟨p, hp, rfl⟩ := List.mem_map.1 ho
    exact .inl ⟨p, hp, rfl⟩
  | some relation =>
    rw [hr] at ho
    exact .inr ⟨relation, rfl, ho⟩

end Request

/-- A read of a precomputed relation has a statement only if its sort keys and its predicates
compile. -/
theorem Relation.read_eq_ok {r : Relation} {sortBy : String} {order : SortOrder}
    {predicates : List Predicate} {limit offset : Int} {q : Statement}
    (h : r.read sortBy order predicates limit offset = .ok q) :
    SortSpec.compileAll r.table r.family [] [⟨sortBy, some order⟩, ⟨r.level.keyField, none⟩] =
        .ok q.sort ∧
      Predicate.compileAll r.table r.family predicates = .ok q.conditions ∧
      q = { outputs := Output.ofTable r.table, source := .ofTable r.table,
            conditions := q.conditions, sort := q.sort, limit := some limit,
            offset := some offset } := by
  obtain ⟨sort, hsort, h⟩ := Outcome.bind_eq_ok_iff.1 h
  obtain ⟨conditions, hconditions, h⟩ := Outcome.bind_eq_ok_iff.1 h
  obtain rfl := Except.ok.inj h
  exact ⟨hsort, hconditions, rfl⟩

/-- A grouped selection has a statement only if its groups, predicates and sort keys compile. -/
theorem Statement.grouped_eq_ok {produced : List Produced} {groupBy : List String}
    {filters : List Predicate} {sort : List SortSpec} {limit : Option Int} {q : Statement}
    (h : Statement.grouped produced groupBy filters sort limit = .ok q) :
    ∃ groups, groupBy.mapM (Produced.groupBy .sales .transactions) = .ok groups ∧
      Predicate.compileAll .sales .transactions filters = .ok q.conditions ∧
      SortSpec.compileAll .sales .transactions ((groups ++ produced).map Produced.label) sort =
        .ok q.sort ∧
      q = { outputs := (groups ++ produced).map Produced.output, source := .ofTable .sales,
            conditions := q.conditions, groups := groups.map Produced.term, sort := q.sort,
            limit := some (Paging.standard.rows limit) } := by
  obtain ⟨groups, hgroups, h⟩ := Outcome.bind_eq_ok_iff.1 h
  obtain ⟨conditions, hconditions, h⟩ := Outcome.bind_eq_ok_iff.1 h
  obtain ⟨keys, hkeys, h⟩ := Outcome.bind_eq_ok_iff.1 h
  obtain rfl := Except.ok.inj h
  exact ⟨groups, hgroups, hconditions, hkeys, rfl⟩

namespace Request

variable {q : Statement}

theorem built_of_read {r : Request} {relation : Relation} {sortBy : String} {order : SortOrder}
    {limit offset : Int} (hrelation : r.relation? = some relation) (hgroupBy : r.groupBy = [])
    (hproduced : r.produced = .ok []) (hlabels : ∀ shown, r.labels shown = [])
    (hsort : r.sort = [⟨sortBy, some order⟩, ⟨relation.level.keyField, none⟩])
    (hlimit : r.limit = limit) (hoffset : r.offset = some offset)
    (h : relation.read sortBy order r.predicates limit offset = .ok q) : r.Built q [] [] := by
  obtain ⟨keys, conditions, hq⟩ := Relation.read_eq_ok h
  have htable : r.table = relation.table := by rw [table, hrelation, Option.elim_some]
  have hfamily : r.family = relation.family := by rw [family, hrelation, Option.elim_some]
  exact {
    groupBy_eq := by rw [hgroupBy]; rfl
    produced_eq := hproduced
    outputs_eq := by rw [hq, Request.outputs, hrelation, Option.elim_some]
    source_eq := by rw [hq, htable]
    conditions_eq := by rw [htable, hfamily, conditions]
    groups_eq := by rw [hq]; rfl
    sort_eq := by rw [hlabels, htable, hfamily, hsort, keys]
    limit_eq := by rw [hq, hlimit]
    offset_eq := by rw [hq, hoffset] }

/-- The statement of a request is put together of its parts. This is the only place where the
compilation of all requests is taken apart. -/
theorem built_of_statement {r : Request} (h : r.statement = .ok q) :
    ∃ groups produced, r.Built q groups produced := by
  cases r with
  | rollup s =>
    rw [statement, FilterState.statement_eq] at h
    exact ⟨[], [], built_of_read (r := .rollup s) rfl rfl rfl (fun _ => rfl) rfl rfl rfl h⟩
  | delta p =>
    rw [statement, DeltaParams.statement] at h
    exact ⟨[], [], built_of_read (r := .delta p) rfl rfl rfl (fun _ => rfl) rfl rfl rfl h⟩
  | slope p =>
    rw [statement, SlopeParams.statement] at h
    exact ⟨[], [], built_of_read (r := .slope p) rfl rfl rfl (fun _ => rfl) rfl rfl rfl h⟩
  | sales o =>
    cases o with
    | query args =>
      obtain ⟨shown, hshown, h⟩ := Outcome.bind_eq_ok_iff.1 h
      obtain ⟨conditions, hconditions, h⟩ := Outcome.bind_eq_ok_iff.1 h
      obtain ⟨keys, hkeys, h⟩ := Outcome.bind_eq_ok_iff.1 h
      obtain rfl := Except.ok.inj h
      exact ⟨[], shown, rfl, hshown, rfl, rfl, hconditions, rfl, hkeys, rfl, rfl⟩
    | aggregate args =>
      obtain ⟨produced, hproduced, h⟩ := Outcome.bind_eq_ok_iff.1 h
      obtain ⟨groups, hgroups, hconditions, hkeys, hq⟩ := Statement.grouped_eq_ok h
      exact ⟨groups, produced, hgroups, hproduced, by rw [hq]; rfl, by rw [hq]; rfl, hconditions,
        by rw [hq], hkeys, by rw [hq]; rfl, by rw [hq]; rfl⟩
    | calculate args =>
      obtain ⟨produced, hproduced, h⟩ := Outcome.bind_eq_ok_iff.1 h
      obtain ⟨groups, hgroups, hconditions, hkeys, hq⟩ := Statement.grouped_eq_ok h
      exact ⟨groups, produced, hgroups, hproduced, by rw [hq]; rfl, by rw [hq]; rfl, hconditions,
        by rw [hq], hkeys, by rw [hq]; rfl, by rw [hq]; rfl⟩

end Request

end PropertyMarket
