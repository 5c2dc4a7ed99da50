import PropertyMarket.Proofs.LooseIntent
import PropertyMarket.Proofs.PickedLines

/-!
# What a read of a rollup gives

A read of a rollup picks the lines of one year, perhaps of one month, perhaps of some communes and
some sections, with metrics within some bounds. It sorts them by one column and then by the
location key. The period of the lines is the same for all of them, and a rollup has only one line
for a location in a period. So no two lines are sorted alike, and pages have each line once.

The conditions are put together from several parts of the state, some of which may be missing. Each
of them is true or false of a line of a rollup, and never unknown, since a rollup has no missing
entries.

## Main definitions

* `FilterState.Wants` — what a state asks of a line
* `FilterState.atPage` — a state for one page

## Main results

* `FilterState.wants_iff_passes` — the predicates of a state decide what the state asks for
* `FilterState.read_pages` — what a read of a rollup gives

## Implementation notes

What a state asks of a line is written down without any predicate, so that it can be read as the
meaning of the state. The predicates are compared with it one by one. For each of them it matters
that the line has an entry of the right kind in the column, which is where the declarations of the
rollup come in: none of its columns may be null.

That no two lines are sorted alike needs the conditions as well as the sort keys. The sort keys only
separate locations; that there is one line for each of them follows from the period that the
conditions fix.
-/

namespace PropertyMarket

variable {c : Collation} {table : Table} {family : Family} {line : Line} {column : Column}

/-! ### The entries of a rollup

A rollup declares texts for its locations and numbers for everything else, and allows null nowhere.
So the entry of a column is known up to its value. -/

namespace Table.Admits

/-- A column of numbers that has to have an entry has a number. -/
theorem number (h : table.Admits line) (hc : column ∈ table.columns)
    (required : column.nullable = false)
    (type : column.type = .integer ∨ column.type = .float) : ∃ x, line column.name = .number x := by
  obtain ⟨absent, -⟩ | typed := h column hc
  · rw [required] at absent
    nomatch absent
  · obtain type | type := type <;> rw [type] at typed <;> cases entry : line column.name <;>
      simp_all [Entry.HasType]

/-- A column of texts that has to have an entry has a text. -/
theorem text {length : ℕ} (h : table.Admits line) (hc : column ∈ table.columns)
    (required : column.nullable = false) (type : column.type = .varchar length) :
    ∃ s, line column.name = .text s := by
  obtain ⟨absent, -⟩ | typed := h column hc
  · rw [required] at absent
    nomatch absent
  · rw [type] at typed
    cases entry : line column.name <;> simp_all [Entry.HasType]

end Table.Admits

theorem Field.mem_columns_of_onTable {name : String}
    (h : onTable table family name = .ok column) : column ∈ table.columns := by
  obtain ⟨_, -, found⟩ := onTable_eq_ok_iff.1 h
  exact List.mem_of_find?_eq_some found

/-- The columns of a rollup have to have entries, and all but those of locations have numbers. -/
theorem Relation.rollup_column {r : Relation} (rollup : r.family = .rollup)
    (h : column ∈ r.table.columns) :
    column.nullable = false ∧ (column.name ∈ ["insee_code", "section"] ∨
      column.type = .integer ∨ column.type = .float) := by
  have keys : ∀ column ∈ locationColumns r.level ++ periodColumns r.grain,
      column.nullable = false ∧ (column.name ∈ ["insee_code", "section"] ∨
        column.type = .integer ∨ column.type = .float) := by
    cases r.level <;> cases r.grain <;> decide
  have among : column ∈ locationColumns r.level ++ (periodColumns r.grain ++
      r.type.measured.map fun name => ⟨name, metricType name, false⟩) := by
    simpa only [table, columns, rollup] using h
  rw [← List.append_assoc, List.mem_append] at among
  obtain key | metric := among
  · exact keys column key
  · obtain ⟨name, -, rfl⟩ := List.mem_map.1 metric
    refine ⟨rfl, .inr ?_⟩
    unfold metricType
    split
    · exact .inr rfl
    · exact .inl rfl

/-- The fields of numbers are named like their columns, and are no locations. -/
theorem Field.numeric_column : ∀ f ∈ Family.fields .rollup, f.numeric = true →
    f.column = f.name ∧ f.column ∉ ["insee_code", "section"] := by
  decide +kernel

namespace FilterState

variable {s : FilterState} {q : Statement} {content : List Line}

theorem onTable_year (s : FilterState) :
    Field.onTable s.relation.table .rollup "year" = .ok ⟨"year", .integer, false⟩ := by
  refine Field.onTable_eq_ok_iff.2 ⟨_, rfl, ?_⟩
  show (Relation.table ⟨.rollup, s.level, s.type, s.grain⟩).column? "year" = _
  have known := s.grain_ne_week
  cases hg : s.grain with
  | week => exact absurd hg known
  | _ => cases s.level <;> rfl

theorem onTable_month (h : s.month ≠ none) :
    Field.onTable s.relation.table .rollup "month" = .ok ⟨"month", .integer, false⟩ := by
  refine Field.onTable_eq_ok_iff.2 ⟨_, rfl, ?_⟩
  show (Relation.table ⟨.rollup, s.level, s.type, s.grain⟩).column? "month" = _
  rw [grain_eq_month_iff.2 h]
  cases s.level <;> rfl

theorem onTable_inseeCode (s : FilterState) :
    Field.onTable s.relation.table .rollup "inseeCode" = .ok ⟨"insee_code", .varchar 5, false⟩ := by
  refine Field.onTable_eq_ok_iff.2 ⟨_, rfl, ?_⟩
  show (Relation.table ⟨.rollup, s.level, s.type, s.grain⟩).column? "insee_code" = _
  cases s.level <;> rfl

theorem onTable_section (h : s.level = .cadastral) :
    Field.onTable s.relation.table .rollup "section" = .ok ⟨"section", .varchar 11, false⟩ := by
  refine Field.onTable_eq_ok_iff.2 ⟨_, rfl, ?_⟩
  show (Relation.table ⟨.rollup, s.level, s.type, s.grain⟩).column? "section" = _
  rw [h]
  rfl

/-! ### What a state asks of a line

Each part of a state that is given asks something of one column, and a part that is not given asks
nothing. -/

/-- What a state asks of a line of its rollup: its year and its month, one of its communes and one
of its sections, and metrics within the bounds of the filters. -/
structure Wants (s : FilterState) (line : Line) : Prop where
  year : line "year" = .int s.year
  month : ∀ n, s.month = some n → line "month" = .int n
  inseeCode : s.inseeCodes ≠ [] → ∃ code ∈ s.inseeCodes, line "insee_code" = .text code
  section_ : s.sections ≠ [] → ∃ code ∈ s.sections, line "section" = .text code
  filters : ∀ f ∈ s.filters.getD [], ∃ x, line f.1 = .number x ∧ f.2.Holds x

/-- The filter of a field of numbers decides whether the number of the line is within its bounds. -/
theorem decides_filter {name : String} (f : NumericFilter)
    (numeric : ∃ field, Field.find? .rollup name = some field ∧ field.numeric = true)
    (found : ∃ column, Field.onTable s.relation.table .rollup name = .ok column)
    (admitted : s.relation.table.Admits line) :
    (f.toPredicate name).Decides c s.relation.table .rollup line
      (∃ x, line name = .number x ∧ f.Holds x) := by
  obtain ⟨field, known, isNumber⟩ := numeric
  obtain ⟨column, found⟩ := found
  obtain ⟨_, known', stored⟩ := Field.onTable_eq_ok_iff.1 found
  obtain rfl := Option.some.inj (known.symm.trans known')
  have among := Field.mem_columns_of_onTable found
  obtain ⟨same, other⟩ := Field.numeric_column field (Field.mem_fields_of_find? known) isNumber
  rw [Field.find?_name known, ← Table.name_of_column? stored] at same
  rw [← Table.name_of_column? stored] at other
  obtain ⟨required, type⟩ := Relation.rollup_column rfl among
  rw [← same]
  exact Predicate.decides_toPredicate f (same ▸ found)
    (admitted.number among required (type.resolve_left other))

/-- Every predicate of a state decides something of a line, and together they decide whether it is
what the state asks for. -/
theorem wants_iff_passes (h : s.statement = .ok q)
    (numeric : ∀ f ∈ s.filters.getD [],
      ∃ field, Field.find? .rollup f.1 = some field ∧ field.numeric = true)
    (admitted : s.relation.table.Admits line) :
    (∀ p ∈ s.allPredicates, ∃ holds, p.Decides c s.relation.table .rollup line holds) ∧
      ((∀ p ∈ s.allPredicates, p.Passes c s.relation.table .rollup line) ↔ s.Wants line) := by
  obtain ⟨-, cadastral, found⟩ := statement_ok_iff.1 ⟨q, h⟩
  have year := Predicate.decides_equalsInt (c := c) s.year s.onTable_year
    (admitted.number (Field.mem_columns_of_onTable s.onTable_year) rfl (.inl rfl))
  have month (n : ℤ) (hn : s.month = some n) :
      (⟨"month", "=", .int n⟩ : Predicate).Decides c s.relation.table .rollup line
        (line "month" = .int n) := by
    have given : s.month ≠ none := by simp [hn]
    exact Predicate.decides_equalsInt n (onTable_month given)
      (admitted.number (Field.mem_columns_of_onTable (onTable_month given)) rfl (.inl rfl))
  have codes (given : s.inseeCodes ≠ []) := Predicate.decides_oneOf (c := c) given
    s.onTable_inseeCode (admitted.text (Field.mem_columns_of_onTable s.onTable_inseeCode) rfl rfl)
  have sections (given : s.sections ≠ []) := Predicate.decides_oneOf (c := c) given
    (onTable_section (cadastral given))
    (admitted.text (Field.mem_columns_of_onTable (onTable_section (cadastral given))) rfl rfl)
  have filters (f : String × NumericFilter) (hf : f ∈ s.filters.getD []) :=
    decides_filter (c := c) f.2 (numeric f hf) (found f hf) admitted
  constructor
  · intro p hp
    obtain rfl | ⟨n, hn, rfl⟩ | ⟨given, rfl⟩ | ⟨given, rfl⟩ | ⟨f, hf, rfl⟩ :=
      mem_allPredicates_iff.1 hp
    · exact ⟨_, year⟩
    · exact ⟨_, month n hn⟩
    · exact ⟨_, codes given⟩
    · exact ⟨_, sections given⟩
    · exact ⟨_, filters f hf⟩
  · have asked (p : Predicate) := mem_allPredicates_iff (s := s) (p := p)
    constructor
    · intro passes
      exact {
        year := year.passes_iff.1 (passes _ ((asked _).2 (.inl rfl)))
        month := fun n hn =>
          (month n hn).passes_iff.1 (passes _ ((asked _).2 (.inr (.inl ⟨n, hn, rfl⟩))))
        inseeCode := fun given => (codes given).passes_iff.1
          (passes _ ((asked _).2 (.inr (.inr (.inl ⟨given, rfl⟩)))))
        section_ := fun given => (sections given).passes_iff.1
          (passes _ ((asked _).2 (.inr (.inr (.inr (.inl ⟨given, rfl⟩))))))
        filters := fun f hf => (filters f hf).passes_iff.1
          (passes _ ((asked _).2 (.inr (.inr (.inr (.inr ⟨f, hf, rfl⟩)))))) }
    · intro wants p hp
      obtain rfl | ⟨n, hn, rfl⟩ | ⟨given, rfl⟩ | ⟨given, rfl⟩ | ⟨f, hf, rfl⟩ := (asked p).1 hp
      · exact year.passes_iff.2 wants.year
      · exact (month n hn).passes_iff.2 (wants.month n hn)
      · exact (codes given).passes_iff.2 (wants.inseeCode given)
      · exact (sections given).passes_iff.2 (wants.section_ given)
      · exact (filters f hf).passes_iff.2 (wants.filters f hf)

/-! ### Pages

A state for one page is a state, so the pages of a read are statements of states that only differ in
their limit and offset. -/

/-- A state for one page: the same read with the page's limit and offset. -/
def atPage (s : FilterState) (size number : ℕ) : FilterState :=
  { s with limit := size, offset := (number * size : ℕ) }

theorem statement_atPage (h : s.statement = .ok q) (size number : ℕ) :
    (s.atPage size number).statement = .ok (q.paged size number) := by
  rw [statement_eq] at h ⊢
  exact Relation.read_paged h size number

/-- The lines that a state asks for have one period, so the location key tells them apart. -/
theorem Wants.rowKey_eq {a b : Line} (ha : s.Wants a) (hb : s.Wants b)
    (same : a s.level.keyColumn = b s.level.keyColumn) :
    s.relation.rowKey a = s.relation.rowKey b := by
  have year : a "year" = b "year" := ha.year.trans hb.year.symm
  show (s.level.keyColumn :: (Relation.periodColumns (.ofMonth s.month)).map Column.name).map a =
    (s.level.keyColumn :: (Relation.periodColumns (.ofMonth s.month)).map Column.name).map b
  cases hm : s.month with
  | none => simp [TimeGrain.ofMonth, Relation.periodColumns, same, year]
  | some n =>
    have month : a "month" = b "month" := (ha.month n hm).trans (hb.month n hm).symm
    simp [TimeGrain.ofMonth, Relation.periodColumns, same, year, month]

/-- The lines of two communes that differ in nothing else. Sorted by any metric they are alike, and
it is the location key that tells them apart. -/
def twins : List Line :=
  [.ofCommune "75112" Calendar.latestYear, .ofCommune "75113" Calendar.latestYear]

/-- A state that asks for the lines of these communes, and for few sales. -/
def ofTwins : FilterState where
  inseeCodes := ["75113", "75112"]
  filters := some [("total_sales", .between (.int 1) (.int 5))]

theorem admits_twins : ∀ line ∈ twins, ofTwins.relation.table.Admits line := by
  have admitted (code : String) (length : code.length ≤ 5) :
      ofTwins.relation.table.Admits (.ofCommune code Calendar.latestYear) :=
    Table.admits_ofCommune length _ (by decide +kernel)
  simp [twins, admitted "75112" (by decide), admitted "75113" (by decide)]

theorem wants_twins : ∀ line ∈ twins, ofTwins.Wants line := by
  have wanted (code : String) (hcode : code ∈ ofTwins.inseeCodes) :
      ofTwins.Wants (.ofCommune code Calendar.latestYear) := {
    year := rfl
    month := nofun
    inseeCode := fun _ => ⟨code, hcode, rfl⟩
    section_ := fun given => absurd rfl given
    filters := fun f hf => by
      obtain rfl := List.mem_singleton.1 hf
      exact ⟨.finite 1, rfl, by decide, by decide⟩ }
  simp [twins, wanted "75112" (by decide), wanted "75113" (by decide)]

/-- **What a read of a rollup gives.** Every condition is true or false of every line, and the lines
that the statement picks are those that the state asks for. No two of them are alike in the columns
that they are sorted by, which are the sort key and then the location key. So in pages of any size
each of them comes once, however the store has lines that are sorted alike. -/
theorem read_pages (c : Collation) (h : s.statement = .ok q)
    (numeric : ∀ f ∈ s.filters.getD [],
      ∃ field, Field.find? .rollup f.1 = some field ∧ field.numeric = true)
    (admitted : ∀ line ∈ content, s.relation.table.Admits line)
    (keyed : s.relation.Keyed content) :
    (∀ line ∈ content,
      (∀ condition ∈ q.conditions, ∃ b, condition.verdict c line = some (.ofBool b)) ∧
      (q.keeps c line = true ↔ s.Wants line)) ∧
    q.OfLines s.relation.table ∧
    (∃ column, Field.onTable s.relation.table .rollup s.sortBy = .ok column ∧
      q.sortColumns = [(column.name, s.order), (s.level.keyColumn, .asc)]) ∧
    (q.selected c content).Pairwise (fun a b => ∃ column ∈ q.sortColumns, a column.1 ≠ b column.1) ∧
    ∀ size > 0, ListedOnce c content (fun i => (s.atPage size i).statement) size
      (q.selected c content) := by
  have hread : s.relation.read s.sortBy s.order s.allPredicates s.limit s.offset = .ok q := by
    rw [← statement_eq, h]
  obtain ⟨-, conditions, -⟩ := Relation.read_eq_ok hread
  have picks (line : Line) (hline : line ∈ content) : q.keeps c line = true ↔ s.Wants line := by
    rw [Predicate.keeps_iff_passes conditions]
    exact (wants_iff_passes h numeric (admitted line hline)).2
  obtain ⟨column, found, sorted⟩ := Relation.read_sortColumns hread
  have apart : ((q.selected c content).map (q.place c)).Nodup := by
    refine (keyed.nodup.filter _).map_on fun a ha b hb same => ?_
    have location : a s.level.keyColumn = b s.level.keyColumn :=
      (q.place_eq_iff c).1 same (s.level.keyColumn, .asc) (by simp [sorted, relation])
    obtain ⟨ma, ka⟩ := List.mem_filter.1 ha
    obtain ⟨mb, kb⟩ := List.mem_filter.1 hb
    exact keyed.eq_of_rowKey_eq ma mb (((picks a ma).1 ka).rowKey_eq ((picks b mb).1 kb) location)
  refine ⟨fun line hline => ⟨fun condition hc => ?_, picks line hline⟩,
    Relation.read_ofLines hread, ⟨column, found, sorted⟩,
    (q.nodup_place_iff c).1 apart, fun size positive => ?_⟩
  · obtain ⟨p, hp, compiled⟩ := Outcome.exists_of_mem_mapM conditions condition hc
    obtain ⟨_, _, b, compiled', verdict, -⟩ :=
      (wants_iff_passes h numeric (admitted line hline)).1 p hp
    obtain rfl := Except.ok.inj (compiled.symm.trans compiled')
    exact ⟨b, verdict⟩
  · exact (q.listedOnce_iff c (statement_atPage h) keyed.nodup).2 apart size positive

/-- The two communes have the same metric, by which lines are sorted, and in pages of any size each
of them comes once all the same. -/
theorem read_pages_twins :
    (∀ a ∈ twins, ∀ b ∈ twins, a ofTwins.sortBy = b ofTwins.sortBy) ∧
    ∀ size > 0,
      ListedOnce .usual twins (fun i => (ofTwins.atPage size i).statement) size twins := by
  have numeric : ∀ f ∈ ofTwins.filters.getD [],
      ∃ field, Field.find? .rollup f.1 = some field ∧ field.numeric = true := by
    intro f hf
    obtain rfl := List.mem_singleton.1 hf
    exact ⟨_, rfl, rfl⟩
  obtain ⟨q, compiled⟩ : ∃ q, ofTwins.statement = .ok q := by
    refine statement_ok_iff.2 ⟨⟨_, rfl⟩, fun given => absurd rfl given, fun f hf => ?_⟩
    obtain rfl := List.mem_singleton.1 hf
    exact ⟨_, rfl⟩
  obtain ⟨picks, -, -, -, once⟩ := read_pages .usual compiled numeric admits_twins (by decide)
  have all : q.selected .usual twins = twins :=
    List.filter_eq_self.2 fun line hline => (picks line hline).2.2 (wants_twins line hline)
  rw [all] at once
  exact ⟨by decide, once⟩

end FilterState

end PropertyMarket
