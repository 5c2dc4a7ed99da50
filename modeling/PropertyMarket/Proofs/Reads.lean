import PropertyMarket.Compile.Select
import PropertyMarket.Proofs.Availability

/-!
# When a read becomes a statement

A read of a precomputed relation is sorted by a field and by the location key, and is restricted
by predicates. If every predicate is one whose operator takes its value whatever the column is,
then the only thing left that can go wrong is a field which the relation does not hold.

## Main definitions

* `Predicate.Fits` — the operator is known and takes the value
* `FilterState.relation` — the rollup that a state is read from

## Main results

* `Predicate.compile_ok_iff` — a predicate that fits only needs its field
* `Relation.read_ok_iff`, `Relation.read_of_sort` — a read needs its sort keys, then its predicates
* `FilterState.fits_of_mem` — all predicates of a state fit
* `FilterState.statement_ok_iff` — a state only needs its sort key, its sections and its filters

## Implementation notes

The predicates of a state are made by the library itself, with an operator and a value that belong
together, so none of them can be refused for its operator or its value. `Predicate.Fits` is that
guarantee, and it is independent of the relation that is read. What remains of the question whether
there is a statement is a question about names and the columns of one rollup, which is answered in
the module on availability.
-/

namespace PropertyMarket

/-! ### Predicates that fit

A predicate is refused for one of three reasons: its field is not held, its operator is not known,
or the operator does not take the value. If it fits, only the first is left, and the verdict on the
predicate is the verdict on its field. -/

namespace Predicate

/-- The operator of a predicate is known and takes its value, whatever the column is. Then only its
field can be refused. -/
def Fits (p : Predicate) : Prop :=
  ∃ o : Operator, p.operator = Vocabulary.word o ∧ ∀ term, ∃ c, o.apply p term = .ok c

/-- A predicate that fits fails with what its field fails with, and with nothing else. -/
theorem Fits.compile_eq {p : Predicate} (h : p.Fits) (table : Table) (family : Family) :
    ∃ f : Column → Condition, p.compile table family =
      (Field.onTable table family p.field).map f := by
  obtain ⟨o, ho, happly⟩ := h
  choose g hg using happly
  refine ⟨fun column => g (.ofColumn table column), ?_⟩
  simp only [compile, ho, Vocabulary.ofWord?_word, hg]
  cases Field.onTable table family p.field <;> rfl

theorem compile_ok_iff {p : Predicate} (h : p.Fits) {table : Table} {family : Family} :
    (∃ c, p.compile table family = .ok c) ↔ ∃ c, Field.onTable table family p.field = .ok c := by
  obtain ⟨f, hf⟩ := h.compile_eq table family
  rw [hf]
  cases Field.onTable table family p.field <;> simp [Except.map]

/-- A single value fits every comparison, unless it is a truth value. -/
theorem comparison_ok {p : Predicate} (scalar : p.value.isScalar = true)
    (flag : ∀ b, p.value ≠ .bool b) (c : Comparator) (term : Term) :
    p.comparison c term = .ok (.compare c term (.bound p.value)) := by
  rw [comparison, if_pos scalar]
  unfold Comparator.withValue
  split
  · exact absurd ‹_› (flag _)
  · rfl

theorem fits_equalsInt {field : String} {n : Int} : (⟨field, "=", .int n⟩ : Predicate).Fits :=
  ⟨.compare .eq, rfl, fun term => ⟨_, comparison_ok rfl (by simp) .eq term⟩⟩

/-- A list of at least one text fits membership. -/
theorem fits_oneOf {field : String} {texts : List String} (h : texts ≠ []) :
    (⟨field, "in", .ofTexts texts⟩ : Predicate).Fits := by
  refine ⟨.oneOf, rfl, fun term => ⟨.oneOf term (texts.map .text), ?_⟩⟩
  have scalars : (texts.map Value.text).all Value.isScalar = true := by simp [Value.isScalar]
  simp [Operator.apply, Value.ofTexts, scalars, h]

theorem isScalar_toValue (a : Amount) : a.toValue.isScalar = true := by
  cases a <;> rfl

theorem toValue_ne_bool (a : Amount) (b : Bool) : a.toValue ≠ .bool b := by
  cases a <;> simp [Amount.toValue]

/-- A filter of a metric is a predicate that fits. -/
theorem fits_toPredicate (field : String) (f : NumericFilter) : (f.toPredicate field).Fits := by
  cases f with
  | atLeast a =>
    exact ⟨.atLeast, rfl, fun term =>
      ⟨_, comparison_ok (isScalar_toValue a) (toValue_ne_bool a) .ge term⟩⟩
  | atMost a =>
    exact ⟨.atMost, rfl, fun term =>
      ⟨_, comparison_ok (isScalar_toValue a) (toValue_ne_bool a) .le term⟩⟩
  | between a b =>
    refine ⟨.between, rfl, fun term => ⟨.between term a.toValue b.toValue, ?_⟩⟩
    simp [Operator.apply, NumericFilter.toPredicate, NumericFilter.value, isScalar_toValue]

end Predicate

/-! ### Sort keys and reads

The compiler looks the sort key up before it looks at a predicate, so a read that is refused for its
sort key is refused with that error, also if its predicates could not be compiled either. -/

/-- A sort key that names no label only needs its field. -/
theorem SortSpec.compile_nil (table : Table) (family : Family) (s : SortSpec) :
    s.compile table family [] = (Field.onTable table family s.field).map
      fun column => ⟨.term (.ofColumn table column), s.order.getD .asc⟩ := by
  simp only [compile, List.contains_nil, Bool.false_eq_true, if_false]
  cases Field.onTable table family s.field <;> rfl

namespace Relation

variable {r : Relation} {sortBy : String} {order : SortOrder} {predicates : List Predicate}
  {limit offset : Int}

/-- A read whose sort key is refused is refused for that, whatever its predicates are, because the
sort is compiled first. -/
theorem read_of_sort {fault : Fault} (h : Field.onTable r.table r.family sortBy = .error fault) :
    r.read sortBy order predicates limit offset = .error fault := by
  simp only [read, SortSpec.compileAll, List.mapM_cons, SortSpec.compile_nil, h, Except.map,
    Outcome.error_bind]

/-- A read has a statement exactly when its sort keys have columns and its predicates compile. -/
theorem read_ok_iff :
    (∃ q, r.read sortBy order predicates limit offset = .ok q) ↔
      (∃ c, Field.onTable r.table r.family sortBy = .ok c) ∧
        (∃ c, Field.onTable r.table r.family r.level.keyField = .ok c) ∧
          ∀ p ∈ predicates, ∃ c, p.compile r.table r.family = .ok c := by
  simp only [read, SortSpec.compileAll, List.mapM_cons, List.mapM_nil, SortSpec.compile_nil]
  rw [← Outcome.exists_mapM_eq_ok_iff (f := Predicate.compile r.table r.family),
    ← Predicate.compileAll]
  cases Field.onTable r.table r.family sortBy <;>
    cases Field.onTable r.table r.family r.level.keyField <;>
      cases Predicate.compileAll r.table r.family predicates <;> simp [Except.map]

end Relation

/-! ### States

A state is a request for rows of a rollup that is already known to be well formed: the level, the
property type and the grain choose the rollup, and period, codes, sections and filters become
predicates. The grain is never the week, and for months and years there is a rollup of every
kind. -/

namespace FilterState

/-- The rollup that a state is read from. It is the handle of the combination, also where there is
no such relation. -/
def relation (s : FilterState) : Relation := ⟨.rollup, s.level, s.type, s.grain⟩

/-- Rows are read by the month or by the year, never by the week. -/
theorem grain_ne_week (s : FilterState) : s.grain ≠ .week := by
  unfold grain TimeGrain.ofMonth
  split <;> simp

theorem grain_eq_month_iff {s : FilterState} : s.grain = .month ↔ s.month ≠ none := by
  unfold grain TimeGrain.ofMonth
  cases s.month <;> simp

/-- There is a rollup for every state. -/
theorem statement_eq (s : FilterState) :
    s.statement = s.relation.read s.sortBy s.order s.allPredicates s.limit s.offset := by
  have selected : Relation.rollup s.level s.type s.grain = .ok s.relation := by
    rw [Relation.rollup, Relation.select, if_pos]
    · rfl
    · exact fun h => s.grain_ne_week h.2
  rw [statement, selected]
  rfl

/-- The predicates of a state come from its period, its codes, its sections and its filters. -/
theorem mem_allPredicates_iff {s : FilterState} {p : Predicate} :
    p ∈ s.allPredicates ↔
      p = ⟨"year", "=", .int s.year⟩ ∨ (∃ n, s.month = some n ∧ p = ⟨"month", "=", .int n⟩) ∨
        (s.inseeCodes ≠ [] ∧ p = ⟨"inseeCode", "in", .ofTexts s.inseeCodes⟩) ∨
          (s.sections ≠ [] ∧ p = ⟨"section", "in", .ofTexts s.sections⟩) ∨
            ∃ f ∈ s.filters.getD [], p = f.2.toPredicate f.1 := by
  simp only [allPredicates, Predicate.equalsInt?, Predicate.locations, predicates,
    List.mem_append, List.mem_map, List.mem_singleton]
  cases s.month <;> by_cases codes : s.inseeCodes = [] <;> by_cases sections : s.sections = [] <;>
    simp [codes, sections, eq_comm, or_assoc]

/-- All predicates of a state fit: they are made with known operators and with values of the right
form. -/
theorem fits_of_mem {s : FilterState} {p : Predicate} (h : p ∈ s.allPredicates) : p.Fits := by
  obtain rfl | ⟨n, -, rfl⟩ | ⟨codes, rfl⟩ | ⟨sections, rfl⟩ | ⟨f, -, rfl⟩ :=
    mem_allPredicates_iff.1 h
  · exact Predicate.fits_equalsInt
  · exact Predicate.fits_equalsInt
  · exact Predicate.fits_oneOf codes
  · exact Predicate.fits_oneOf sections
  · exact Predicate.fits_toPredicate f.1 f.2

/-- A state has a statement exactly when its rollup holds the sort key, sections if any are asked
for, and the fields of the filters: the year, the month that is asked for, the commune code and
the location key are always there. -/
theorem statement_ok_iff {s : FilterState} :
    (∃ q, s.statement = .ok q) ↔
      (∃ c, Field.onTable s.relation.table .rollup s.sortBy = .ok c) ∧
        (s.sections ≠ [] → s.level = .cadastral) ∧
          ∀ f ∈ s.filters.getD [], ∃ c, Field.onTable s.relation.table .rollup f.1 = .ok c := by
  have known (name : String) (h : name ∈ Dimension.names) :
      (∃ c, Field.onTable s.relation.table .rollup name = .ok c) ↔
        Field.IsKeyOf s.level s.grain name :=
    Field.onTable_dimension_iff (r := s.relation) rfl s.grain_ne_week h
  have location : ∃ c, Field.onTable s.relation.table .rollup s.level.keyField = .ok c := by
    cases hl : s.level with
    | commune => exact (known "inseeCode" (by decide)).2 (.inl rfl)
    | cadastral => exact (known "section" (by decide)).2 (.inr (.inr (.inl ⟨rfl, hl⟩)))
  rw [statement_eq, Relation.read_ok_iff]
  refine and_congr_right fun _ => (and_iff_right location).trans ?_
  constructor
  · intro h
    refine ⟨fun sections => ?_, fun f hf => ?_⟩
    · have hp := mem_allPredicates_iff.2 (.inr (.inr (.inr (.inl ⟨sections, rfl⟩))))
      have := (known "section" (by decide)).1
        ((Predicate.compile_ok_iff (fits_of_mem hp)).1 (h _ hp))
      simpa [Field.IsKeyOf] using this
    · have hp := mem_allPredicates_iff.2 (.inr (.inr (.inr (.inr ⟨f, hf, rfl⟩))))
      exact (Predicate.compile_ok_iff (fits_of_mem hp)).1 (h _ hp)
  · rintro ⟨sections, filters⟩ p hp
    refine (Predicate.compile_ok_iff (fits_of_mem hp)).2 ?_
    obtain rfl | ⟨n, hn, rfl⟩ | ⟨-, rfl⟩ | ⟨hs, rfl⟩ | ⟨f, hf, rfl⟩ := mem_allPredicates_iff.1 hp
    · exact (known "year" (by decide)).2 (.inr (.inl rfl))
    · exact (known "month" (by decide)).2
        (.inr (.inr (.inr ⟨rfl, grain_eq_month_iff.2 (by simp [hn])⟩)))
    · exact (known "inseeCode" (by decide)).2 (.inl rfl)
    · exact (known "section" (by decide)).2 (.inr (.inr (.inl ⟨rfl, sections hs⟩)))
    · exact filters f hf

end FilterState

end PropertyMarket
