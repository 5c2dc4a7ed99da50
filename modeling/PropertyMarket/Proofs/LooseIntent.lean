import PropertyMarket.Proofs.Checked
import PropertyMarket.Proofs.Reads
import PropertyMarket.Request.Intent

/-!
# Which intents become statements

The reading of an intent lets through what the catalog knows: a dimension of the catalog, a metric
of the catalog, filters of metrics. The rollup that it is read from need not hold all of that. It
holds every metric, and it is chosen so that it holds the sections that are asked for; but nothing
chooses it by the period that the dimension names. So an intent about the months of no particular
month, or about weeks, becomes a state that has no statement, and no other intent does.

## Main definitions

* `UserIntent.Normal` — what holds of every intent that has been read
* `UserIntent.LacksPeriod` — the dimension is a period that the rollup does not tell apart

## Main results

* `UserIntent.normal_of_read` — an intent that has been read is normal
* `FilterState.statement_ofIntent` — an accepted intent has a statement exactly if it does not lack
  its period, and otherwise fails at its sort key

## Implementation notes

There is a fallback for the sort key of an intent: a metric that may not be sorted by is replaced by
the preferred one. The dimension does not pass through it. Whatever dimension is named becomes the
sort key as it is, and the grain of the rollup is chosen by whether a month is given and by nothing
else. It is these two together that make an accepted intent unreadable, and the condition
`LacksPeriod` is exactly their combination.
-/

namespace PropertyMarket

namespace UserIntent

/-! ### Intents that have been read

The lenient fields of an intent are dropped if the catalog does not know them, and the filters are
checked as a whole. Either way, nothing that is not in the catalog is left once an intent has been
read, whatever object it has been read from. -/

/-- What holds of every intent that has been read: it only names what the catalog knows. -/
structure Normal (i : UserIntent) : Prop where
  dimension : ∀ d, i.dimension = some d → d ∈ Dimension.names
  metric : ∀ m, i.metric = some m → m ∈ Metric.names
  filters : ∀ f ∈ i.filters.getD [], f.1 ∈ Metric.names

theorem mem_of_lenient {key : Key} {names : List String} {r : Record} {s : String}
    (h : lenient key (nameOf? names) r = some s) : s ∈ names := by
  obtain ⟨v, -, picked⟩ := Option.bind_eq_some_iff.1 h
  cases v with
  | text t =>
    obtain ⟨known, rfl⟩ : t ∈ names ∧ t = s := by simpa [nameOf?] using picked
    exact known
  | _ => nomatch picked

/-- Filters that pass the check are filters of metrics. -/
theorem metrics_of_checkFilters {filters checked : List (String × NumericFilter)}
    (h : checkFilters filters = .valid checked) : ∀ f ∈ checked, f.1 ∈ Metric.names := by
  unfold checkFilters at h
  split at h
  · rename_i none_strange
    obtain rfl : filters = checked := by injection h
    intro f hf
    by_contra strange
    have listed : f.1 ∈ strangers filters := by
      rw [strangers, List.mem_mergeSort, List.mem_filter]
      exact ⟨List.mem_map_of_mem hf, by simpa using strange⟩
    rw [none_strange] at listed
    exact List.not_mem_nil listed
  · nomatch h

theorem metrics_of_readFilters {r : Record} {filters : Option (List (String × NumericFilter))}
    (h : Key.filters.withDefault none (Reader.nullable readFilters) r = .valid filters) :
    ∀ f ∈ filters.getD [], f.1 ∈ Metric.names := by
  cases filters with
  | none => simp
  | some fs =>
    obtain absurd | ⟨v, hv⟩ := Key.withDefault_eq_valid h
    · nomatch absurd
    · obtain ⟨named, -, hchecked⟩ := Checked.andThen_eq_valid (Reader.nullable_eq_some hv)
      exact metrics_of_checkFilters hchecked

/-- An intent that has been read only names what the catalog knows: its dimension is a dimension,
and its metric a metric. -/
theorem normal_of_read {v : Value} {i : UserIntent} (h : read v = .valid i) : i.Normal := by
  cases v with
  | record r =>
    -- The four fields that have to fit, each joined to the ones before it.
    obtain ⟨_, _, hthree, -, rfl⟩ := Checked.seq_eq_valid.1 h
    obtain ⟨_, _, htwo, hfilters, rfl⟩ := Checked.seq_eq_valid.1 hthree
    obtain ⟨_, _, hone, -, rfl⟩ := Checked.seq_eq_valid.1 htwo
    obtain ⟨_, -, rfl⟩ := Checked.map_eq_valid hone
    exact ⟨fun _ => mem_of_lenient, fun _ => mem_of_lenient, metrics_of_readFilters hfilters⟩
  | _ => nomatch h

/-! ### The state of an intent

The state takes over what the intent says and fills in what it does not say. For the question
whether it has a statement, three parts of it matter: the rollup, the sort key, and the fields of
the filters, among which the least number of sales has been merged. -/

theorem mem_of_mem_putFilter {name : String} {filter : NumericFilter} {f : String × NumericFilter}
    {filters : List (String × NumericFilter)} (h : f ∈ putFilter name filter filters) :
    f.1 = name ∨ f ∈ filters := by
  induction filters with
  | nil =>
    obtain rfl := List.mem_singleton.1 h
    exact .inl rfl
  | cons first rest ih =>
    obtain ⟨n, g⟩ := first
    by_cases same : n = name
    · rw [putFilter, if_pos same] at h
      obtain rfl | h := List.mem_cons.1 h
      · exact .inl rfl
      · exact .inr (List.mem_cons_of_mem _ h)
    · rw [putFilter, if_neg same] at h
      obtain rfl | h := List.mem_cons.1 h
      · exact .inr List.mem_cons_self
      · exact (ih h).imp_right (List.mem_cons_of_mem _)

theorem filters_toState (i : UserIntent) :
    i.toState.filters.getD [] = withMinSales i.minSales (i.filters.getD []) := by
  unfold toState
  cases withMinSales i.minSales (i.filters.getD []) <;> simp

/-- The least number of sales is a filter of a metric as well. -/
theorem Normal.filters_toState {i : UserIntent} (h : i.Normal) :
    ∀ f ∈ i.toState.filters.getD [], f.1 ∈ Metric.names := by
  intro f hf
  rw [UserIntent.filters_toState] at hf
  unfold withMinSales at hf
  split at hf
  · split at hf
    · obtain hname | hf := mem_of_mem_putFilter hf
      · rw [hname]
        decide
      · exact h.filters f hf
    · exact h.filters f hf
  · exact h.filters f hf

/-- A metric is on every rollup, so neither a filter nor a sort key that is a metric can be what an
intent is refused for. -/
theorem onTable_metric (s : FilterState) {name : String} (h : name ∈ Metric.names) :
    ∃ c, Field.onTable s.relation.table .rollup name = .ok c :=
  ⟨_, Field.onTable_measured rfl (List.mem_append_left _ h)⟩

/-- Without a dimension, the sort key is a metric. -/
theorem sortKey_mem {i : UserIntent} (h : i.dimension = none) : i.sortKey ∈ Metric.names := by
  have sortable : ∀ m ∈ Metric.sortable, m ∈ Metric.names := by decide
  have preferred : Metric.preferred ∈ Metric.names := by decide
  unfold sortKey
  rw [h]
  cases i.metric with
  | none => exact preferred
  | some m =>
    by_cases sorted : m ∈ Metric.sortable
    · simpa [sorted] using sortable m sorted
    · simpa [sorted] using preferred

/-- The dimension of an intent is a period that its rollup does not tell apart: a week, or a month
when none is given and so the rollup is one of years. -/
def LacksPeriod (i : UserIntent) : Prop :=
  i.dimension = some "iso_year" ∨ i.dimension = some "iso_week" ∨
    (i.dimension = some "month" ∧ i.month = none)

/-- Of the dimensions, exactly the lacking periods are no keys of the rollup of an intent. -/
theorem isKeyOf_iff {i : UserIntent} {d : String} (hd : i.dimension = some d)
    (known : d ∈ Dimension.names) :
    Field.IsKeyOf i.toState.level i.toState.grain d ↔ ¬i.LacksPeriod := by
  have level : i.toState.level = i.level := rfl
  have month : i.toState.grain = .month ↔ i.month ≠ none := FilterState.grain_eq_month_iff
  have names : d = "inseeCode" ∨ d = "section" ∨ d = "year" ∨ d = "month" ∨ d = "iso_year" ∨
      d = "iso_week" := by
    simpa [Dimension.names, Dimension.catalog] using known
  rw [Field.IsKeyOf, LacksPeriod, hd, level, month]
  obtain rfl | rfl | rfl | rfl | rfl | rfl := names <;> simp [UserIntent.level, hd]

/-- A normal intent has a statement exactly if its sort key is on its rollup. -/
theorem Normal.statement_ok_iff {i : UserIntent} (h : i.Normal) :
    (∃ q, i.toState.statement = .ok q) ↔
      ∃ c, Field.onTable i.toState.relation.table .rollup i.sortKey = .ok c := by
  rw [FilterState.statement_ok_iff]
  refine and_iff_left ⟨fun sections => if_pos (.inr sections), fun f hf => ?_⟩
  exact onTable_metric i.toState (h.filters_toState f hf)

/-- A normal intent has a statement exactly if it does not lack its period. -/
theorem Normal.statement_iff {i : UserIntent} (h : i.Normal) :
    (∃ q, i.toState.statement = .ok q) ↔ ¬i.LacksPeriod := by
  rw [h.statement_ok_iff]
  cases hd : i.dimension with
  | none =>
    have lacks_not : ¬i.LacksPeriod := by simp [LacksPeriod, hd]
    exact iff_of_true (onTable_metric i.toState (sortKey_mem hd)) lacks_not
  | some d =>
    have known := h.dimension d hd
    have key : i.sortKey = d := by rw [sortKey, hd]
    rw [key, Field.onTable_dimension_iff rfl i.toState.grain_ne_week known]
    exact isKeyOf_iff hd known

/-- A normal intent that lacks its period is refused for its sort key, which is its dimension. -/
theorem Normal.statement_of_lacksPeriod {i : UserIntent} (h : i.Normal) (lacks : i.LacksPeriod) :
    i.dimension = some i.toState.sortBy ∧ i.toState.statement =
      .error (.query (.missingColumn i.toState.sortBy .rollup i.toState.relation.name)) := by
  obtain ⟨d, hd⟩ : ∃ d, i.dimension = some d := by
    obtain hd | hd | ⟨hd, -⟩ := lacks <;> exact ⟨_, hd⟩
  have known := h.dimension d hd
  have key : i.toState.sortBy = d := by
    show i.sortKey = d
    rw [sortKey, hd]
  have refused := Field.onTable_dimension_of_lacks (r := i.toState.relation) rfl
    i.toState.grain_ne_week known fun holds => (isKeyOf_iff hd known).1 holds lacks
  rw [key]
  refine ⟨hd, ?_⟩
  rw [FilterState.statement_eq, key]
  exact Relation.read_of_sort refused

end UserIntent

/-- A state that comes of an intent is the state of the intent that is read. -/
theorem FilterState.exists_read_of_ofIntent {v : Value} {s : FilterState}
    (h : ofIntent v = .ok s) : ∃ i, UserIntent.read v = .valid i ∧ s = i.toState := by
  unfold ofIntent at h
  cases hi : (UserIntent.read v).orFault "UserIntent" with
  | error fault => simp [hi, Except.map] at h
  | ok i => exact ⟨i, Checked.orFault_eq_ok hi, by simpa [hi, Except.map] using h.symm⟩

/-- **An accepted intent has a statement exactly if it does not lack its period.**

This is said of every value that is accepted as an intent, with the state that comes of it. The one
way in which such a state can fail to be read is that its dimension is a period which its rollup
does not tell apart: a week, or a month where no month is given and the rollup is one of years. The
statement then fails at the sort key, which is that dimension: the column is not on the rollup of
the state, and the error names it as an unknown field. -/
theorem FilterState.statement_ofIntent {v : Value} {s : FilterState} (h : ofIntent v = .ok s) :
    ∃ i, UserIntent.read v = .valid i ∧ s = i.toState ∧
      ((∃ q, s.statement = .ok q) ↔ ¬i.LacksPeriod) ∧
      (i.LacksPeriod → i.dimension = some s.sortBy ∧
        s.statement = .error (.query (.missingColumn s.sortBy .rollup s.relation.name))) := by
  obtain ⟨i, hread, rfl⟩ := exists_read_of_ofIntent h
  have normal := UserIntent.normal_of_read hread
  exact ⟨i, hread, rfl, normal.statement_iff, normal.statement_of_lacksPeriod⟩

/-- An intent about the months of no particular month is accepted, and has no statement. -/
theorem FilterState.statement_ofIntent_month :
    ∃ s, ofIntent (.record [("primaryDimension", .text "month")]) = .ok s ∧
      s.statement = .error (.query (.missingColumn "month" .rollup
        "apartments_by_insee_code_year")) := by
  have accepted : ofIntent (.record [("primaryDimension", .text "month")]) =
      .ok { sortBy := "month" } := rfl
  refine ⟨_, accepted, ?_⟩
  obtain ⟨i, hread, -, -, refused⟩ := statement_ofIntent accepted
  have same : i = { dimension := some "month" } := by
    injection hread.symm.trans
      (show UserIntent.read _ = .valid { dimension := some "month" } from rfl)
  rw [(refused (by rw [same]; exact .inr (.inr ⟨rfl, rfl⟩))).2]
  rfl

end PropertyMarket
