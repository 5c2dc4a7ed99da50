import Mathlib.Data.List.Nodup
import PropertyMarket.Proofs.AllowList

/-!
# Grouped selections and their sort keys

A selection that computes aggregates of groups may only name a column outside of them if it groups
by that column: any other column has more than one value in a group, and the store refuses the whole
selection. What a grouped request shows is sound in this sense whatever the request is. Its sort
keys are not, because a name that is no label of the request is looked up among the fields of a
sale, and a field that is found there is a column that is not grouped by. So a grouped request may
become a selection that the store refuses, and this module says exactly when.

## Main definitions

* `Term.bare`, `Condition.bare` — the columns that a term names outside of aggregates
* `Query.WellGrouped` — every such column is grouped by
* `Request.IsGrouped`, `Request.ownLabels` — grouped requests, and the labels that they make
* `Request.SortsBy` — what a sort key of a grouped request becomes

## Main results

* `Request.statement_eq_unsorted` — the sort keys are compiled last
* `Request.sorts_eq` — sort keys are labels of the request, or columns that it does not group by
* `Request.wellGrouped_iff_sorted` — a grouped selection is sound exactly if it sorts by its own
  labels

## Implementation notes

That a request is sound is a property of the selection and not of any store, so it is stated of
terms: the bare columns of a term are those that no aggregate is around. Labels have no bare
columns, as they stand for what is shown under them.

To say when a statement exists, the sort keys are taken off and put back. They are compiled after
everything else and change nothing but the order of the rows, so a grouped request has a statement
exactly if the unsorted one has, and each of its sort keys can be compiled.
-/

namespace PropertyMarket

/-! ### Columns outside of aggregates

What an aggregate is computed of does not count, whatever columns it names, because it is taken of
every row of a group. All other parts of a term do, its conditions included. -/

mutual

/-- The columns that a term names outside of aggregates. In a grouped statement each of them has to
be grouped by. -/
def Term.bare : Term → List Term
  | .column source name => [.column source name]
  | .bound _ | .truth _ | .null | .countRows | .aggregate _ _ | .percentile _ _ | .slope _ _ => []
  | .arithmetic _ left right => left.bare ++ right.bare
  | .cast term _ | .round term _ | .coalesce term _ => term.bare
  | .choice condition yes no =>
    condition.bare ++ yes.bare ++
      match no with
      | some term => term.bare
      | none => []

/-- The columns that a condition names outside of aggregates, where a condition is part of a
term. -/
def Condition.bare : Condition → List Term
  | .compare _ left right => left.bare ++ right.bare
  | .between term _ _ | .oneOf term _ | .matches term _ | .isNull term | .isNotNull term =>
    term.bare
  | .either first second => first.bare ++ second.bare
  | .intersects shape _ _ _ _ => shape.bare

end

/-- The columns that a sort key names outside of aggregates; a label names none, since it stands for
something that is shown. -/
def SortKey.bare (k : SortKey) : List Term :=
  match k.target with
  | .term term => term.bare
  | .label _ => []

/-- What is shown and what it is sorted by name no column outside of aggregates but those that are
grouped by. A store refuses a grouped selection for which this fails. -/
structure Query.WellGrouped {σ : Type} (q : Query σ) : Prop where
  outputs : ∀ o ∈ q.outputs, ∀ term ∈ o.term.bare, term ∈ q.groups
  sort : ∀ k ∈ q.sort, ∀ term ∈ k.bare, term ∈ q.groups

namespace Produced

variable {table : Table} {family : Family}

theorem bare_of_metric {m : MetricSpec} {p : Produced} (h : m.compile table family = .ok p) :
    p.label = m.label ∧ p.term.bare = [] := by
  obtain ⟨a, f, c, -, -, -, -, rfl⟩ := MetricSpec.compile_eq_ok h
  refine ⟨rfl, ?_⟩
  cases a <;> simp [Aggregate.term, Term.bare]

theorem bare_of_computation {k : Computation} {p : Produced} (h : k.compile table family = .ok p) :
    p.label = k.label ∧ p.term.bare = [] := by
  obtain ⟨_, _, _, _, rfl, -, -, -, rfl⟩ | ⟨_, _, rfl, -, -, rfl⟩ := Computation.compile_eq_ok h
  · exact ⟨rfl, by simp [Term.bare]⟩
  · exact ⟨rfl, by simp [Computation.ratio, Term.bare, Condition.bare]⟩

end Produced

/-- A sort key needs to be a label that may be named, or to have a column. -/
theorem SortSpec.compile_ok_iff {table : Table} {family : Family} {labels : List String}
    {s : SortSpec} : (∃ k, s.compile table family labels = .ok k) ↔
      s.field ∈ labels ∨ ∃ c, Field.onTable table family s.field = .ok c := by
  by_cases own : s.field ∈ labels
  · simp [compile, own]
  · cases found : Field.onTable table family s.field <;> simp [compile, own, found]

/-! ### Grouped requests

What a grouped request shows are the columns that it groups by and the aggregates that it computes.
Both have labels, and the labels are known from the request alone: the names of its fields, and a
name for each computation. -/

namespace Request

/-- A request for aggregates or computations of groups. A query for single sales is not one, nor are
the reads. -/
def IsGrouped : Request → Prop
  | sales (.aggregate _) | sales (.calculate _) => True
  | _ => False

/-- The labels of what is computed of the groups of a request. -/
def computedLabels : Request → List String
  | sales (.aggregate q) => q.metrics.map MetricSpec.label
  | sales (.calculate q) => q.computations.map Computation.label
  | _ => []

/-- The labels that a grouped request makes: the fields that it groups by, and what it computes. -/
def ownLabels (r : Request) : List String := r.groupBy ++ r.computedLabels

/-- The same request without its sort keys. -/
def unsorted : Request → Request
  | sales (.aggregate q) => sales (.aggregate { q with sort := [] })
  | sales (.calculate q) => sales (.calculate { q with sort := [] })
  | r => r

variable {r : Request} {q : Statement} {groups produced : List Produced}

theorem table_of_isGrouped (grouped : r.IsGrouped) :
    r.table = .sales ∧ r.family = .transactions := by
  cases r with
  | rollup | delta | slope => exact grouped.elim
  | sales => exact ⟨rfl, rfl⟩

/-- What is grouped by is labelled by the names of its fields. -/
theorem map_label_groups {names : List String}
    (h : names.mapM (Produced.groupBy .sales .transactions) = .ok groups) :
    groups.map Produced.label = names := by
  have each := Outcome.mapM_eq_ok_iff.1 h
  clear h
  induction each with
  | nil => rfl
  | cons hp _ ih =>
    obtain ⟨_, _, -, -, -, rfl⟩ := Produced.groupBy_eq_ok hp
    rw [List.map_cons, ih]

/-- What is computed has the labels of a request, and names no column outside of aggregates. -/
theorem computed_of_mapM {α : Type} {compile : α → Except Fault Produced} {label : α → String}
    (each : ∀ x p, compile x = .ok p → p.label = label x ∧ p.term.bare = []) {xs : List α}
    (h : xs.mapM compile = .ok produced) :
    produced.map Produced.label = xs.map label ∧ ∀ p ∈ produced, p.term.bare = [] := by
  constructor
  · have steps := Outcome.mapM_eq_ok_iff.1 h
    clear h
    induction steps with
    | nil => rfl
    | cons hp _ ih => rw [List.map_cons, List.map_cons, ih, (each _ _ hp).1]
  · intro p hp
    obtain ⟨x, -, hx⟩ := Outcome.exists_of_mem_mapM h p hp
    exact (each x p hx).2

theorem computed_of_produced (grouped : r.IsGrouped) (h : r.produced = .ok produced) :
    produced.map Produced.label = r.computedLabels ∧ ∀ p ∈ produced, p.term.bare = [] := by
  cases r with
  | rollup | delta | slope => exact grouped.elim
  | sales o =>
    cases o with
    | query => exact grouped.elim
    | aggregate => exact computed_of_mapM (fun _ _ => Produced.bare_of_metric) h
    | calculate => exact computed_of_mapM (fun _ _ => Produced.bare_of_computation) h

/-- The sort keys of a grouped selection are compiled last. -/
theorem grouped_eq_unsorted {computed : Except Fault (List Produced)} {groupBy labels : List String}
    (labelled : ∀ produced, computed = .ok produced →
      groupBy ++ produced.map Produced.label = labels)
    (filters : List Predicate) (sort : List SortSpec) (limit : Option Int) :
    (do Statement.grouped (← computed) groupBy filters sort limit) = do
      let q ← (do Statement.grouped (← computed) groupBy filters [] limit)
      let keys ← SortSpec.compileAll .sales .transactions labels sort
      return { q with sort := keys } := by
  cases computed with
  | error => rfl
  | ok produced =>
    rw [Outcome.ok_bind, Outcome.ok_bind, ← labelled produced rfl, Statement.grouped,
      Statement.grouped]
    cases hgroups : groupBy.mapM (Produced.groupBy .sales .transactions) with
    | error => rfl
    | ok groups =>
      cases Predicate.compileAll .sales .transactions filters with
      | error => rfl
      | ok conditions =>
        rw [← map_label_groups hgroups, ← List.map_append]
        rfl

/-- The sort keys of a grouped request are compiled last, with the labels of the request at hand. If
anything else fails, it fails before them. -/
theorem statement_eq_unsorted (grouped : r.IsGrouped) :
    r.statement = do
      let q ← r.unsorted.statement
      let keys ← SortSpec.compileAll .sales .transactions r.ownLabels r.sort
      return { q with sort := keys } := by
  have labelled (produced : List Produced) (h : r.produced = .ok produced) :
      r.groupBy ++ produced.map Produced.label = r.ownLabels := by
    rw [(computed_of_produced grouped h).1, ownLabels]
  cases r with
  | rollup | delta | slope => exact grouped.elim
  | sales o =>
    cases o with
    | query => exact grouped.elim
    | aggregate args => exact grouped_eq_unsorted labelled args.filters args.sort args.limit
    | calculate args => exact grouped_eq_unsorted labelled args.filters args.sort args.limit

/-! ### Sort keys

A sort key is looked up among the labels first. If it is none of them it falls back to the columns
of a sale, and a column that is found there cannot be one of the groups: if it were, its field would
be a label. -/

/-- What a sort key of a grouped request becomes: a label of the request as it is, or the column of
a field of a sale, which is then not grouped by. -/
inductive SortsBy (r : Request) (groups : List Term) (s : SortSpec) (k : SortKey) : Prop
  | label (own : s.field ∈ r.ownLabels) (target : k.target = .label s.field)
  | column {c : Column} (strange : s.field ∉ r.ownLabels)
    (field : Field.onTable .sales .transactions s.field = .ok c)
    (target : k.target = .term (.ofColumn .sales c)) (single : .ofColumn .sales c ∉ groups)

/-- The fields of a sale stand for different columns. -/
theorem nodup_saleColumns : (Family.transactions.fields.map Field.column).Nodup := by
  decide +kernel

/-- Two names with one column are the same name. -/
theorem eq_of_saleColumn {name other : String} {c : Column}
    (h : Field.onTable .sales .transactions name = .ok c)
    (h' : Field.onTable .sales .transactions other = .ok c) : name = other := by
  obtain ⟨f, hf, hc⟩ := Field.onTable_eq_ok_iff.1 h
  obtain ⟨g, hg, hc'⟩ := Field.onTable_eq_ok_iff.1 h'
  have same : f = g := List.inj_on_of_nodup_map nodup_saleColumns (Field.mem_fields_of_find? hf)
    (Field.mem_fields_of_find? hg)
    ((Table.name_of_column? hc).symm.trans (Table.name_of_column? hc'))
  rw [← Field.find?_name hf, ← Field.find?_name hg, same]

/-- A column of a sale is known by its name. -/
theorem eq_of_ofColumn {c d : Column} (hc : c ∈ Table.sales.columns) (hd : d ∈ Table.sales.columns)
    (h : Term.ofColumn .sales c = .ofColumn .sales d) : c = d := by
  have nodup : (Table.sales.columns.map Column.name).Nodup := by decide +kernel
  exact List.inj_on_of_nodup_map nodup hc hd (Term.column.inj h).2

/-- A name that is no label of a request has a column that the request does not group by. No two
fields of a sale share a column, so the column of another field is another column. -/
theorem not_mem_groups_of_strange {name : String} {c : Column}
    (hgroups : r.groupBy.mapM (Produced.groupBy .sales .transactions) = .ok groups)
    (strange : name ∉ r.ownLabels) (hc : Field.onTable .sales .transactions name = .ok c) :
    Term.ofColumn .sales c ∉ groups.map Produced.term := by
  intro grouped
  obtain ⟨p, hp, same⟩ := List.mem_map.1 grouped
  obtain ⟨other, hother, hp⟩ := Outcome.exists_of_mem_mapM hgroups p hp
  obtain ⟨f, d, hf, -, hd, rfl⟩ := Produced.groupBy_eq_ok hp
  obtain ⟨_, -, hc'⟩ := Field.onTable_eq_ok_iff.1 hc
  obtain rfl := eq_of_ofColumn (List.mem_of_find?_eq_some hd) (List.mem_of_find?_eq_some hc') same
  have known : Field.onTable .sales .transactions other = .ok d :=
    Field.onTable_eq_ok_iff.2 ⟨f, hf, hd⟩
  exact strange (eq_of_saleColumn hc known ▸ List.mem_append_left _ hother)

/-- The labels that sort keys may name are those that the request makes. -/
theorem Built.labels_eq (grouped : r.IsGrouped) (built : r.Built q groups produced) :
    r.labels (groups ++ produced) = r.ownLabels := by
  have computed := (computed_of_produced grouped built.produced_eq).1
  have hgroups := built.groupBy_eq
  rw [(table_of_isGrouped grouped).1, (table_of_isGrouped grouped).2] at hgroups
  rw [ownLabels, ← map_label_groups hgroups, ← computed, ← List.map_append]
  cases r with
  | rollup | delta | slope => exact grouped.elim
  | sales o =>
    cases o with
    | query => exact grouped.elim
    | aggregate | calculate => rfl

/-- Each sort key of a grouped request is a label that the request makes, or a column that it does
not group by. -/
theorem sorts_eq (grouped : r.IsGrouped) (built : r.Built q groups produced) :
    List.Forall₂ (r.SortsBy q.groups) r.sort q.sort := by
  obtain ⟨table, family⟩ := table_of_isGrouped grouped
  have keys := built.sort_eq
  have hgroups := built.groupBy_eq
  rw [built.labels_eq grouped, table, family] at keys
  rw [table, family] at hgroups
  refine (Outcome.mapM_eq_ok_iff.1 keys).imp fun s k hk => ?_
  by_cases own : s.field ∈ r.ownLabels
  · rw [SortSpec.compile, if_pos (by simpa using own)] at hk
    obtain rfl := Except.ok.inj hk
    exact .label own rfl
  · obtain ⟨own', -⟩ | ⟨c, hc, rfl⟩ := SortSpec.compile_eq_ok hk
    · exact absurd own' own
    · refine .column own hc rfl ?_
      rw [built.groups_eq]
      exact not_mem_groups_of_strange hgroups own hc

/-- A sort key keeps to the groups exactly if it is a label. -/
theorem SortsBy.bare_iff {terms : List Term} {s : SortSpec} {k : SortKey}
    (h : r.SortsBy terms s k) : (∀ term ∈ k.bare, term ∈ terms) ↔ s.field ∈ r.ownLabels := by
  cases h with
  | label own target => simp [SortKey.bare, target, own]
  | column strange field target single =>
    simp only [SortKey.bare, target, Term.ofColumn, Term.bare, List.mem_singleton, forall_eq]
    exact iff_of_false single strange

/-- Sort keys keep to the groups exactly if all of them are labels. -/
theorem bare_sort_iff {terms : List Term} {specs : List SortSpec} {keys : List SortKey}
    (h : List.Forall₂ (r.SortsBy terms) specs keys) :
    (∀ k ∈ keys, ∀ term ∈ k.bare, term ∈ terms) ↔ ∀ s ∈ specs, s.field ∈ r.ownLabels := by
  induction h with
  | nil => simp
  | cons first _ ih => rw [List.forall_mem_cons, List.forall_mem_cons, ih, first.bare_iff]

/-- What a grouped request shows names no column outside of aggregates but those that are grouped
by. So only its sort keys can make it unsound. -/
theorem bare_outputs (grouped : r.IsGrouped) (built : r.Built q groups produced) :
    ∀ o ∈ q.outputs, ∀ term ∈ o.term.bare, term ∈ q.groups := by
  intro o ho term hterm
  obtain ⟨p, hp, rfl⟩ | ⟨relation, hr, -⟩ := built.output_cases ho
  · obtain hp | hp := List.mem_append.1 hp
    · obtain ⟨name, -, hname⟩ := Outcome.exists_of_mem_mapM built.groupBy_eq p hp
      obtain ⟨f, c, -, -, -, same⟩ := Produced.groupBy_eq_ok hname
      have itself : p.term.bare = [p.term] := by simp [same, Term.ofColumn, Term.bare]
      rw [Produced.output, itself, List.mem_singleton] at hterm
      rw [built.groups_eq, hterm]
      exact List.mem_map_of_mem hp
    · rw [Produced.output, (computed_of_produced grouped built.produced_eq).2 p hp] at hterm
      nomatch hterm
  · cases r with
    | rollup | delta | slope => exact grouped.elim
    | sales => nomatch hr

/-- **A grouped request has a statement whenever its sort keys are labels of its own or fields of a
sale, and the statement is sound exactly if all of them are labels.**

What it shows is sound in any case. -/
theorem wellGrouped_iff_sorted (grouped : r.IsGrouped) :
    ((∃ q, r.statement = .ok q) ↔ (∃ q, r.unsorted.statement = .ok q) ∧ ∀ s ∈ r.sort,
      s.field ∈ r.ownLabels ∨ ∃ c, Field.onTable .sales .transactions s.field = .ok c) ∧
    ∀ q, r.statement = .ok q →
      (∀ o ∈ q.outputs, ∀ term ∈ o.term.bare, term ∈ q.groups) ∧
      List.Forall₂ (r.SortsBy q.groups) r.sort q.sort ∧
      (q.WellGrouped ↔ ∀ s ∈ r.sort, s.field ∈ r.ownLabels) := by
  have keys : (∃ keys, SortSpec.compileAll .sales .transactions r.ownLabels r.sort = .ok keys) ↔
      ∀ s ∈ r.sort, s.field ∈ r.ownLabels ∨
        ∃ c, Field.onTable .sales .transactions s.field = .ok c := by
    simp only [SortSpec.compileAll, Outcome.exists_mapM_eq_ok_iff, SortSpec.compile_ok_iff]
  constructor
  · rw [statement_eq_unsorted grouped, ← keys]
    cases r.unsorted.statement <;>
      cases SortSpec.compileAll .sales .transactions r.ownLabels r.sort <;> simp
  · intro q h
    obtain ⟨groups, produced, built⟩ := built_of_statement h
    have shown := bare_outputs grouped built
    have sorted := sorts_eq grouped built
    have sound := bare_sort_iff sorted
    exact ⟨shown, sorted, fun well => sound.1 well.sort, fun own => ⟨shown, sound.2 own⟩⟩

/-- Average prices by year, sorted by floor areas, which are neither grouped nor computed. Each year
has many floor areas, so that there is no order to give its row. -/
def pricesByArea : Request :=
  .sales (.aggregate {
    groupBy := ["year"]
    metrics := [⟨"avg", "price"⟩]
    sort := [⟨"floorArea", some .desc⟩] })

theorem wellGrouped_pricesByArea :
    pricesByArea.IsGrouped ∧ ∃ q, pricesByArea.statement = .ok q ∧ ¬q.WellGrouped := by
  have grouped : pricesByArea.IsGrouped := trivial
  obtain ⟨-, sorted⟩ := wellGrouped_iff_sorted grouped
  refine ⟨grouped, _, rfl, fun sound => ?_⟩
  have own := (sorted _ rfl).2.2.1 sound ⟨"floorArea", some .desc⟩ (List.mem_singleton_self _)
  revert own
  decide

end Request

end PropertyMarket
