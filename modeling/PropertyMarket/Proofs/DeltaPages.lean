import PropertyMarket.Proofs.ComparisonColumns
import PropertyMarket.Proofs.PickedLines

/-!
# What a read of a yearly comparison gives

A yearly comparison has a line for each location and each year that has one before it. Like all
reads, a read of it is sorted by one column and then by the location key. But unlike those of a
rollup, its lines need not be of one year, since a year is only asked for if one is given. Then the
lines of one location in several years are told apart by nothing but the sorted column, and if
they are alike in that, pages may have one of them twice and the other one not at all.

## Main definitions

* `DeltaParams.Has` — what a line of a yearly comparison is like
* `DeltaParams.PagesOnce` — pages have each line once

## Main results

* `DeltaParams.keeps_update_year` — a read that is not given a year does not depend on it
* `DeltaParams.exists_not_pagesOnce` — without years, pages can have a line twice
* `DeltaParams.pages_once_iff` — for which contents, and for which reads, pages have each line once

## Implementation notes

A counterexample has to be a content that the relation can have: lines that are told apart by its
key, each of the year after its base year. It is made of one line that the read picks, put into two
different years. Since nothing in the read depends on the years if none is given, both are picked,
and since they differ in nothing else, both are sorted alike.

The other direction is the result about pages of any statement, `Query.listedOnce_iff`, and the key
of the relation: two lines that are sorted alike are of one location, so only their years can tell
them apart.
-/

namespace PropertyMarket

/-- Only the fields of the years have their columns. -/
theorem Field.column_ne_year {table : Table} {name : String} {column : Column}
    (h : onTable table .delta name = .ok column) :
    (name ≠ "year" → column.name ≠ "year") ∧ (name ≠ "base_year" → column.name ≠ "base_year") := by
  have named : ∀ f ∈ Family.fields .delta,
      (f.column = "year" → f.name = "year") ∧ (f.column = "base_year" → f.name = "base_year") := by
    decide +kernel
  obtain ⟨f, known, stored⟩ := onTable_eq_ok_iff.1 h
  rw [Table.name_of_column? stored, ← find?_name known]
  obtain ⟨year, base⟩ := named f (mem_fields_of_find? known)
  exact ⟨mt year, mt base⟩

namespace DeltaParams

variable {p : DeltaParams} {q : Statement} {c : Collation} {content : List Line} {line : Line}

/-- The relation that is read. -/
def relation (p : DeltaParams) : Relation := .delta p.level p.type

/-! ### Years

The predicates of a read name their fields themselves, so it can be read off from the fields which
columns a read depends on. A year is among them only if it is given. -/

theorem onTable_year (p : DeltaParams) :
    Field.onTable p.relation.table .delta "year" = .ok ⟨"year", .integer, false⟩ := by
  refine Field.onTable_eq_ok_iff.2 ⟨_, rfl, ?_⟩
  show (Relation.delta p.level p.type).table.column? "year" = _
  cases p.level <;> rfl

theorem onTable_baseYear (p : DeltaParams) :
    Field.onTable p.relation.table .delta "base_year" = .ok ⟨"base_year", .integer, false⟩ := by
  refine Field.onTable_eq_ok_iff.2 ⟨_, rfl, ?_⟩
  show (Relation.delta p.level p.type).table.column? "base_year" = _
  cases p.level <;> rfl

/-- Predicates are about locations, the years that are given, and parts of the comparison. -/
theorem field_of_mem {predicate : Predicate} (h : predicate ∈ p.allPredicates) :
    predicate.field ∈ ["inseeCode", "section"] ∨ (p.year ≠ none ∧ predicate.field = "year") ∨
      (p.baseYear ≠ none ∧ predicate.field = "base_year") ∨
        ∃ part : Comparison.Part, predicate.field = part.column p.metric := by
  simp only [allPredicates, List.mem_append] at h
  obtain ((location | year) | base) | bound := h
  · left
    have either : predicate = ⟨"inseeCode", "in", .ofTexts p.inseeCodes⟩ ∨
        predicate = ⟨"section", "in", .ofTexts p.sections⟩ := by
      rw [Predicate.locations, List.mem_append] at location
      refine location.imp (fun codes => ?_) fun sections => ?_
      · split at codes
        · exact absurd codes List.not_mem_nil
        · exact List.mem_singleton.1 codes
      · split at sections
        · exact absurd sections List.not_mem_nil
        · exact List.mem_singleton.1 sections
    obtain rfl | rfl := either <;> simp
  · refine .inr (.inl ?_)
    cases given : p.year with
    | none => simp [given, Predicate.equalsInt?] at year
    | some n =>
      rw [given, Predicate.equalsInt?, List.mem_singleton] at year
      exact ⟨Option.some_ne_none n, by rw [year]⟩
  · refine .inr (.inr (.inl ?_))
    cases given : p.baseYear with
    | none => simp [given, Predicate.equalsInt?] at base
    | some n =>
      rw [given, Predicate.equalsInt?, List.mem_singleton] at base
      exact ⟨Option.some_ne_none n, by rw [base]⟩
  · refine .inr (.inr (.inr ?_))
    obtain ⟨⟨value, part, operator⟩, -, made⟩ := List.mem_filterMap.1 bound
    obtain ⟨x, -, rfl⟩ := Option.map_eq_some_iff.1 made
    exact ⟨part, rfl⟩

/-- A predicate is about a year only if the year is given. -/
theorem field_ne_year {predicate : Predicate} (h : predicate ∈ p.allPredicates) :
    (p.year = none → predicate.field ≠ "year") ∧
      (p.baseYear = none → predicate.field ≠ "base_year") := by
  obtain location | ⟨given, year⟩ | ⟨given, base⟩ | ⟨part, named⟩ := field_of_mem h
  · constructor <;> rintro - same <;> simp [same] at location
  · exact ⟨fun absent => absurd absent given, fun _ => by rw [year]; decide⟩
  · exact ⟨fun _ => by rw [base]; decide, fun absent => absurd absent given⟩
  · rw [named]
    exact ⟨fun _ => (part.column_ne_year _).1, fun _ => (part.column_ne_year _).2⟩

/-- The conditions of a read are those of its predicates. -/
theorem conditions_of_statement (h : p.statement = .ok q) :
    Predicate.compileAll p.relation.table .delta p.allPredicates = .ok q.conditions :=
  (Relation.read_eq_ok h).2.1

/-- A read that is not given a year does not depend on it: whatever year a line is put into, it is
picked or dropped as before. -/
theorem keeps_update_year (h : p.statement = .ok q) (given : p.year = none) (entry : Entry) :
    q.keeps c (Function.update line "year" entry) = q.keeps c line :=
  Predicate.keeps_update (conditions_of_statement h) (fun _ hp _ found =>
    (Field.column_ne_year found).1 ((field_ne_year hp).1 given)) entry

/-- The same of the base year, which is a column and a restriction of its own. -/
theorem keeps_update_baseYear (h : p.statement = .ok q) (given : p.baseYear = none)
    (entry : Entry) :
    q.keeps c (Function.update line "base_year" entry) = q.keeps c line :=
  Predicate.keeps_update (conditions_of_statement h) (fun _ hp _ found =>
    (Field.column_ne_year found).2 ((field_ne_year hp).2 given)) entry

/-- The lines that a read picks are of the year that is given. -/
theorem year_of_keeps (h : p.statement = .ok q) {n : ℤ} (given : p.year = some n)
    (kept : q.keeps c line = true) : line "year" = .int n := by
  refine (Predicate.passes_equalsInt_iff p.onTable_year).1
    ((Predicate.keeps_iff_passes (conditions_of_statement h)).1 kept ⟨"year", "=", .int n⟩ ?_)
  simp [allPredicates, given, Predicate.equalsInt?]

theorem baseYear_of_keeps (h : p.statement = .ok q) {n : ℤ} (given : p.baseYear = some n)
    (kept : q.keeps c line = true) : line "base_year" = .int n := by
  refine (Predicate.passes_equalsInt_iff p.onTable_baseYear).1
    ((Predicate.keeps_iff_passes (conditions_of_statement h)).1 kept ⟨"base_year", "=", .int n⟩ ?_)
  simp [allPredicates, given, Predicate.equalsInt?]

/-! ### Pages

A read for one page differs from the read in its limit and its offset only. All pages of a read so
have the same conditions and the same sort keys. -/

/-- A read for one page. -/
def atPage (p : DeltaParams) (size number : ℕ) : DeltaParams :=
  { p with limit := size, offset := (number * size : ℕ) }

theorem statement_atPage (h : p.statement = .ok q) (size number : ℕ) :
    (p.atPage size number).statement = .ok (q.paged size number) :=
  Relation.read_paged h size number

/-- In pages of any size, each line comes once, whatever the store does with lines that are sorted
alike. -/
def PagesOnce (p : DeltaParams) (q : Statement) (c : Collation) (content : List Line) : Prop :=
  ∀ size > 0,
    ListedOnce c content (fun i => (p.atPage size i).statement) size (q.selected c content)

theorem pagesOnce_iff_nodup (h : p.statement = .ok q) (nodup : content.Nodup) :
    p.PagesOnce q c content ↔ ((q.selected c content).map (q.place c)).Nodup :=
  q.listedOnce_iff c (statement_atPage h) nodup

/-- The lines of a location are told apart by their years, and the location is sorted by; so pages
have each line once if the sorted column tells the years of a location apart. -/
theorem pagesOnce_iff_years (h : p.statement = .ok q) {name : String}
    (sorted : q.sortColumns = [(name, p.order), (p.level.keyColumn, .asc)])
    (keyed : p.relation.Keyed content) :
    p.PagesOnce q c content ↔ ∀ a ∈ q.selected c content, ∀ b ∈ q.selected c content,
      a p.level.keyColumn = b p.level.keyColumn → a name = b name → a "year" = b "year" := by
  have alike (a b : Line) : q.place c a = q.place c b ↔
      a name = b name ∧ a p.level.keyColumn = b p.level.keyColumn := by
    simp [Query.place_eq_iff, sorted]
  rw [pagesOnce_iff_nodup h keyed.nodup]
  constructor
  · intro apart a ha b hb location value
    rw [List.inj_on_of_nodup_map apart ha hb ((alike a b).2 ⟨value, location⟩)]
  · intro years
    refine (keyed.nodup.filter _).map_on fun a ha b hb same => ?_
    obtain ⟨value, location⟩ := (alike a b).1 same
    have key : p.relation.rowKey a = p.relation.rowKey b := by
      show [a p.level.keyColumn, a "year"] = [b p.level.keyColumn, b "year"]
      rw [location, years a ha b hb location value]
    exact keyed.eq_of_rowKey_eq (List.mem_of_mem_filter ha) (List.mem_of_mem_filter hb) key

/-- A line that a yearly comparison can have: it is of the year after its base year. -/
structure Has (p : DeltaParams) (line : Line) : Prop where
  admitted : p.relation.table.Admits line
  follows : ∃ n : ℤ, line "year" = .int n ∧ line "base_year" = .int (n - 1)

/-- The line in another year. -/
def inYear (line : Line) (n : ℤ) : Line :=
  Function.update (Function.update line "base_year" (.int (n - 1))) "year" (.int n)

theorem has_inYear (admitted : p.relation.table.Admits line) (n : ℤ) :
    p.Has (inYear line n) where
  admitted := by
    have typed : ∀ column ∈ (Relation.delta p.level p.type).table.columns,
        (column.name = "year" → column.type = .integer) ∧
          (column.name = "base_year" → column.type = .integer) := by
      cases p.level <;> cases p.type <;> decide +kernel
    exact (admitted.update_int (fun column hc => (typed column hc).2) _).update_int
      (fun column hc => (typed column hc).1) _
  follows := ⟨n, rfl, rfl⟩

/-- If no year is given, a line that a read picks can come in two years, and these are sorted alike.
So there is no read without years whose pages are safe, unless it picks no line at all. -/
theorem exists_not_pagesOnce (h : p.statement = .ok q) (year : p.year = none)
    (base : p.baseYear = none) (has : p.Has line) (kept : q.keeps c line = true) :
    ∃ content, p.relation.Keyed content ∧ (∀ line ∈ content, p.Has line) ∧
      ¬p.PagesOnce q c content := by
  obtain ⟨column, found, sorted⟩ := Relation.read_sortColumns h
  obtain ⟨notYear, notBase⟩ := Field.column_ne_year found
  have other : column.name ≠ "year" ∧ column.name ≠ "base_year" :=
    have named := p.sortBy.part.column_ne_year p.metric
    ⟨notYear named.1, notBase named.2⟩
  have location : p.level.keyColumn ≠ "year" ∧ p.level.keyColumn ≠ "base_year" := by
    cases p.level <;> decide
  have same (name : String) (hn : name ≠ "year" ∧ name ≠ "base_year") (n : ℤ) :
      inYear line n name = line name := by
    rw [inYear, Function.update_of_ne hn.1, Function.update_of_ne hn.2]
  have keeps (n : ℤ) : q.keeps c (inYear line n) = true := by
    rw [inYear, keeps_update_year h year, keeps_update_baseYear h base, kept]
  let a := inYear line 0
  let b := inYear line 1
  have differ : a "year" ≠ b "year" := by
    show Entry.int 0 ≠ Entry.int 1
    decide
  have keyed : p.relation.Keyed [a, b] := by
    have keys : p.relation.rowKey a ≠ p.relation.rowKey b := by
      show [a p.level.keyColumn, a "year"] ≠ [b p.level.keyColumn, b "year"]
      simp [differ]
    simpa [Relation.Keyed] using keys
  refine ⟨[a, b], keyed, by simp [a, b, has_inYear has.admitted], fun once => differ ?_⟩
  have picked : q.selected c [a, b] = [a, b] := by
    simp [Query.selected, a, b, keeps]
  refine (pagesOnce_iff_years h sorted keyed).1 once a (by simp [picked]) b (by simp [picked]) ?_ ?_
  · exact (same _ location 0).trans (same _ location 1).symm
  · exact (same _ other 0).trans (same _ other 1).symm

/-- The lines of one year are told apart by their locations, which are sorted by last. -/
theorem pagesOnce_of_year (h : p.statement = .ok q) (given : p.year ≠ none)
    (keyed : p.relation.Keyed content) : p.PagesOnce q c content := by
  obtain ⟨column, -, sorted⟩ := Relation.read_sortColumns h
  obtain ⟨n, given⟩ := Option.ne_none_iff_exists'.1 given
  refine (pagesOnce_iff_years h sorted keyed).2 fun a ha b hb _ _ => ?_
  have ya : a "year" = .int n := year_of_keeps h given (List.mem_filter.1 ha).2
  have yb : b "year" = .int n := year_of_keeps h given (List.mem_filter.1 hb).2
  rw [ya, yb]

/-- Lines of one base year are of one year. -/
theorem pagesOnce_of_baseYear (h : p.statement = .ok q) (given : p.baseYear ≠ none)
    (keyed : p.relation.Keyed content) (has : ∀ line ∈ content, p.Has line) :
    p.PagesOnce q c content := by
  obtain ⟨column, -, sorted⟩ := Relation.read_sortColumns h
  obtain ⟨n, given⟩ := Option.ne_none_iff_exists'.1 given
  have year (a : Line) (ha : a ∈ q.selected c content) : a "year" = .int (n + 1) := by
    obtain ⟨ha, kept⟩ := List.mem_filter.1 ha
    obtain ⟨m, year, base⟩ := (has a ha).follows
    have before : m - 1 = n := by
      rw [← Entry.int_inj, ← base, baseYear_of_keeps h given kept]
    rw [year, ← before, Int.sub_add_cancel]
  refine (pagesOnce_iff_years h sorted keyed).2 fun a ha b hb _ _ => ?_
  rw [year a ha, year b hb]

/-- The lines of one commune in two years, with the same numbers. A commune without any change from
one year to the next looks like this. -/
def twoYears : List Line :=
  [inYear (.ofCommune "75112" 2023) 2023, inYear (.ofCommune "75112" 2024) 2024]

theorem has_twoYears : ∀ line ∈ twoYears, ({} : DeltaParams).Has line := by
  have admitted (year : ℤ) :
      (Relation.delta .commune .apartment).table.Admits (.ofCommune "75112" year) :=
    Table.admits_ofCommune (by decide) year (by decide +kernel)
  have has (year n : ℤ) : ({} : DeltaParams).Has (inYear (.ofCommune "75112" year) n) :=
    has_inYear (p := {}) (admitted year) n
  simp only [twoYears, List.forall_mem_cons]
  exact ⟨has 2023 2023, has 2024 2024, nofun⟩

/-- **When pages of a yearly comparison have each line once.** They do if and only if no two lines
of a location in different years have the same entry in the sorted column. If the year is given,
there are no such lines. It is also enough that the base year is given, as a line is always of the
year after it. But for a read without years that picks any line at all, there are contents for which
pages do not have each line once. -/
theorem pages_once_iff (c : Collation) (h : p.statement = .ok q) :
    q.OfLines p.relation.table ∧
    (∃ column, Field.onTable p.relation.table .delta
        (p.sortBy.part.column p.metric) = .ok column ∧
      q.sortColumns = [(column.name, p.order), (p.level.keyColumn, .asc)] ∧
      ∀ content, p.relation.Keyed content →
        (p.PagesOnce q c content ↔ (q.selected c content).Pairwise fun a b =>
          ∃ column ∈ q.sortColumns, a column.1 ≠ b column.1) ∧
        (p.PagesOnce q c content ↔ ∀ a ∈ q.selected c content, ∀ b ∈ q.selected c content,
          a p.level.keyColumn = b p.level.keyColumn → a column.name = b column.name →
            a "year" = b "year")) ∧
    (p.year ≠ none → ∀ content, p.relation.Keyed content → p.PagesOnce q c content) ∧
    ((∀ content, p.relation.Keyed content → (∀ line ∈ content, p.Has line) →
        p.PagesOnce q c content) ↔
      p.year ≠ none ∨ p.baseYear ≠ none ∨ ∀ line, p.Has line → q.keeps c line = false) := by
  obtain ⟨column, found, sorted⟩ := Relation.read_sortColumns h
  refine ⟨Relation.read_ofLines h, ⟨column, found, sorted, fun content keyed =>
    ⟨(pagesOnce_iff_nodup h keyed.nodup).trans (q.nodup_place_iff c),
      pagesOnce_iff_years h sorted keyed⟩⟩,
    fun given content keyed => pagesOnce_of_year h given keyed, ?_, ?_⟩
  · intro once
    by_contra none
    push Not at none
    obtain ⟨year, base, line, has, kept⟩ := none
    obtain ⟨content, keyed, all, twice⟩ :=
      exists_not_pagesOnce h year base has (Bool.eq_true_of_not_eq_false kept)
    exact twice (once content keyed all)
  · rintro (year | base | nothing) content keyed has
    · exact pagesOnce_of_year h year keyed
    · exact pagesOnce_of_baseYear h base keyed has
    · refine (pagesOnce_iff_years h sorted keyed).2 fun a ha => ?_
      obtain ⟨hma, ka⟩ := List.mem_filter.1 ha
      exact absurd ka (by simp [nothing a (has a hma)])

/-- A read that is not given any years picks the lines of a commune in two years. If these have the
same number of sales, pages do not have each of them once. -/
theorem pages_once_iff_twoYears :
    ∃ q, ({} : DeltaParams).statement = .ok q ∧ q.selected .usual twoYears = twoYears ∧
      ({} : DeltaParams).relation.Keyed twoYears ∧
      (∀ line ∈ twoYears, ({} : DeltaParams).Has line) ∧
      ¬({} : DeltaParams).PagesOnce q .usual twoYears := by
  have keyed : ({} : DeltaParams).relation.Keyed twoYears := by decide
  refine ⟨_, rfl, rfl, keyed, has_twoYears, fun once => ?_⟩
  obtain ⟨-, ⟨column, found, -, exactly⟩, -⟩ := pages_once_iff (p := {}) .usual rfl
  obtain rfl : ⟨"total_sales_current", .integer, true⟩ = column := Except.ok.inj found
  have years : Entry.int 2023 = .int 2024 :=
    ((exactly twoYears keyed).2.1 once) _ (.head _) _ (.tail _ (.head _)) rfl rfl
  exact absurd years (by decide)

end DeltaParams

end PropertyMarket
