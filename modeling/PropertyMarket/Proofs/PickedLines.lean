import PropertyMarket.Proofs.Compiled
import PropertyMarket.Proofs.Entries
import PropertyMarket.Proofs.Reads
import PropertyMarket.Proofs.Request

/-!
# The lines that a read picks

A read of a precomputed relation has one condition for each predicate of its request. Each of them
is asked of a line on its own, and the line is picked if all of them are true. So it is enough to
know what a single predicate says of a line; that depends on the kind of its value and of the
entry that it is compared with, and on nothing else.

What the lines are sorted by is the same for all reads: the column of the sort key, and then the
location key.

## Main definitions

* `Predicate.Passes` — the condition of a predicate is true of a line
* `Predicate.Decides` — it is true if something holds, and false otherwise
* `NumericFilter.Holds` — a number is within the bounds of a filter
* `Relation.rowKey`, `Relation.Keyed` — the location key and the period of a line tell it apart

## Main results

* `Predicate.keeps_iff_passes` — a statement picks the lines that pass all of its predicates
* `Predicate.decides_equalsInt`, `decides_oneOf`, `decides_toPredicate` — what predicates decide
* `Relation.read_sortColumns`, `Relation.read_paged` — how a read is sorted, and its pages

## Implementation notes

A verdict is asked of a condition, and a condition is only there once its predicate has been
compiled. `Predicate.Decides` and `Predicate.Passes` put the two together, so that results about
reads can speak of predicates and of lines, and of nothing in between. The first is the stronger one
and needs an entry of the right kind; the second is all that selecting takes.
-/

namespace PropertyMarket

variable {c : Collation} {table : Table} {family : Family} {line : Line} {column : Column}

/-! ### What predicates say of a line

The reads make predicates of three kinds: an integer that a column equals, some texts that it is one
of, and bounds for a number. For each kind it is said what the line has to hold. -/

/-- The condition of a predicate says of a line whether something holds: it is true of the line if
it does, false if it does not, and never unknown. -/
def Predicate.Decides (p : Predicate) (c : Collation) (table : Table) (family : Family)
    (line : Line) (holds : Prop) : Prop :=
  ∃ condition b, p.compile table family = .ok condition ∧
    condition.verdict c line = some (.ofBool b) ∧ (b = true ↔ holds)

/-- The size of an amount. -/
def Amount.size : Amount → Magnitude
  | .int n => .finite n
  | .double x => .ofDouble x

theorem Entry.ofValue?_toValue (a : Amount) : ofValue? a.toValue = some (.number a.size) := by
  cases a <;> rfl

/-- The size of a number is within the bounds of a filter, its bounds included. -/
def NumericFilter.Holds : NumericFilter → Magnitude → Prop
  | .atLeast a, x => a.size ≤ x
  | .atMost a, x => x ≤ a.size
  | .between a b, x => a.size ≤ x ∧ x ≤ b.size

namespace Predicate

/-- A predicate with an operator and a field that are known is what the operator makes of it. -/
theorem compile_of {p : Predicate} {o : Operator} {condition : Condition}
    (word : p.operator = Vocabulary.word o)
    (found : Field.onTable table family p.field = .ok column)
    (applied : o.apply p (.ofColumn table column) = .ok condition) :
    p.compile table family = .ok condition := by
  rw [compile, word, Vocabulary.ofWord?_word]
  dsimp only
  rw [found, Outcome.ok_bind, applied]

/-- A comparison with a number decides how the number of the line compares with it. -/
theorem decides_comparison {p : Predicate} {o : Operator} (comparator : Comparator)
    {x y : Magnitude} (word : p.operator = Vocabulary.word o) (scalar : p.value.isScalar = true)
    (bound : Entry.ofValue? p.value = some (.number y))
    (compares : ∀ term, o.apply p term = p.comparison comparator term)
    (found : Field.onTable table family p.field = .ok column)
    (entry : line column.name = .number x) :
    p.Decides c table family line (comparator.Relates x y) := by
  have flag (b : Bool) : p.value ≠ .bool b := by
    intro h
    rw [h] at bound
    nomatch bound
  have held : (Term.ofColumn table column).entryOf? line = some (.number x) := congrArg some entry
  obtain ⟨b, tested, said⟩ := c.test_number comparator x y
  have applied := (compares (.ofColumn table column)).trans (comparison_ok scalar flag _ _)
  refine ⟨_, b, compile_of word found applied, ?_, said⟩
  rw [Condition.verdict_compare comparator held bound, tested]

theorem decides_equalsInt {field : String} (n : ℤ)
    (found : Field.onTable table family field = .ok column)
    (entry : ∃ x, line column.name = .number x) :
    (⟨field, "=", .int n⟩ : Predicate).Decides c table family line
      (line column.name = .int n) := by
  obtain ⟨x, entry⟩ := entry
  rw [entry, Entry.int, Entry.number.injEq]
  exact decides_comparison (o := .compare .eq) .eq rfl rfl rfl (fun _ => rfl) found
    entry

theorem decides_oneOf {field : String} {texts : List String} (nonempty : texts ≠ [])
    (found : Field.onTable table family field = .ok column)
    (entry : ∃ s, line column.name = .text s) :
    (⟨field, "in", .ofTexts texts⟩ : Predicate).Decides c table family line
      (∃ s ∈ texts, line column.name = .text s) := by
  obtain ⟨s, entry⟩ := entry
  have applied : Operator.oneOf.apply ⟨field, "in", .ofTexts texts⟩ (.ofColumn table column) =
      .ok (.oneOf (.ofColumn table column) (texts.map .text)) := by
    have scalars : (texts.map Value.text).all Value.isScalar = true := by simp [Value.isScalar]
    simp [Operator.apply, Value.ofTexts, scalars, nonempty]
  have held : (Term.ofColumn table column).entryOf? line = some (.text s) := congrArg some entry
  obtain ⟨b, verdict, said⟩ := Condition.verdict_oneOf (c := c) texts held
  refine ⟨_, b, compile_of (o := .oneOf) rfl found applied, verdict, said.trans ?_⟩
  simp [entry]

/-- A filter decides whether the number of the line is within its bounds. Nothing is in both bounds
of an interval that is turned around. -/
theorem decides_toPredicate {field : String} (f : NumericFilter)
    (found : Field.onTable table family field = .ok column)
    (entry : ∃ x, line column.name = .number x) :
    (f.toPredicate field).Decides c table family line
      (∃ x, line column.name = .number x ∧ f.Holds x) := by
  obtain ⟨x, entry⟩ := entry
  simp only [entry, Entry.number.injEq, exists_eq_left']
  cases f with
  | atLeast a =>
    exact decides_comparison (o := .atLeast) .ge rfl (isScalar_toValue a)
      (Entry.ofValue?_toValue a) (fun _ => rfl) found entry
  | atMost a =>
    exact decides_comparison (o := .atMost) .le rfl (isScalar_toValue a)
      (Entry.ofValue?_toValue a) (fun _ => rfl) found entry
  | between low high =>
    have held : (Term.ofColumn table column).entryOf? line = some (.number x) := congrArg some entry
    have applied : Operator.between.apply ((NumericFilter.between low high).toPredicate field)
        (.ofColumn table column) =
        .ok (.between (.ofColumn table column) low.toValue high.toValue) := by
      simp [Operator.apply, NumericFilter.toPredicate, NumericFilter.value, isScalar_toValue]
    obtain ⟨above, habove, least⟩ := c.test_number .ge x low.size
    obtain ⟨below, hbelow, most⟩ := c.test_number .le x high.size
    refine ⟨_, above && below, compile_of (o := .between) rfl found applied, ?_, ?_⟩
    · rw [← Truth.ofBool_and]
      exact Condition.verdict_between held (Entry.ofValue?_toValue low)
        (Entry.ofValue?_toValue high) habove hbelow
    · rw [Bool.and_eq_true, least, most]
      exact Iff.rfl

/-- A line passes a predicate if its condition is true of the line; if the condition is unknown, or
says nothing, it does not pass. -/
def Passes (p : Predicate) (c : Collation) (table : Table) (family : Family) (line : Line) : Prop :=
  ∃ condition, p.compile table family = .ok condition ∧ condition.verdict c line = some .yes

theorem Decides.passes_iff {p : Predicate} {holds : Prop}
    (h : p.Decides c table family line holds) :
    p.Passes c table family line ↔ holds := by
  obtain ⟨condition, b, compiled, verdict, said⟩ := h
  rw [← said]
  constructor
  · rintro ⟨_, same, yes⟩
    obtain rfl := Except.ok.inj (compiled.symm.trans same)
    rwa [verdict, Option.some_inj, Truth.ofBool_eq_yes] at yes
  · rintro rfl
    exact ⟨condition, compiled, verdict⟩

/-- Whatever is in the column, only the number itself passes equality with an integer. -/
theorem passes_equalsInt_iff {field : String} {n : ℤ}
    (found : Field.onTable table family field = .ok column) :
    (⟨field, "=", .int n⟩ : Predicate).Passes c table family line ↔ line column.name = .int n := by
  have compiled : (⟨field, "=", .int n⟩ : Predicate).compile table family =
      .ok (.compare .eq (.ofColumn table column) (.bound (.int n))) :=
    compile_of (o := .compare .eq) rfl found (comparison_ok rfl (by simp) _ _)
  have held : (Term.ofColumn table column).entryOf? line = some (line column.name) := rfl
  have asked : (Condition.compare .eq (.ofColumn table column) (.bound (.int n))).verdict c line =
      c.test .eq (line column.name) (.int n) := Condition.verdict_compare .eq held rfl
  cases entry : line column.name with
  | number x => exact entry ▸ (decides_equalsInt n found ⟨x, entry⟩).passes_iff
  | null | truth _ | text _ =>
    rw [entry] at asked
    constructor
    · rintro ⟨_, same, yes⟩
      obtain rfl := Except.ok.inj (compiled.symm.trans same)
      nomatch asked.symm.trans yes
    · exact nofun

/-- What a predicate says of a line depends on its own column alone. -/
theorem passes_congr {p : Predicate} {line' : Line}
    (alike : ∀ column, Field.onTable table family p.field = .ok column →
      line column.name = line' column.name) :
    p.Passes c table family line ↔ p.Passes c table family line' := by
  refine exists_congr fun condition => and_congr_right fun compiled => ?_
  obtain ⟨o, column, -, found, applied⟩ := compile_eq_ok compiled
  have same : condition.verdict c line = condition.verdict c line' := by
    cases Operator.asks_of_apply applied <;>
      simp only [Condition.verdict, Term.entryOf?, Term.ofColumn, alike column found]
  rw [same]

/-- A statement picks the lines that pass all of its predicates, if each predicate decides what it
is about. -/
theorem keeps_iff_passes {q : Statement} {predicates : List Predicate}
    (h : compileAll table family predicates = .ok q.conditions) :
    q.keeps c line = true ↔ ∀ p ∈ predicates, p.Passes c table family line := by
  rw [Query.keeps]
  have each := Outcome.mapM_eq_ok_iff.1 h
  clear h
  generalize q.conditions = conditions at each
  induction each with
  | nil => simp
  | cons compiled _ ih =>
    rw [List.all_cons, Bool.and_eq_true, List.forall_mem_cons, decide_eq_true_iff]
    refine and_congr ⟨fun yes => ⟨_, compiled, yes⟩, ?_⟩ ih
    rintro ⟨_, same, yes⟩
    obtain rfl := Except.ok.inj (compiled.symm.trans same)
    exact yes

/-- A statement does not depend on a column that none of its predicates is about. -/
theorem keeps_update {q : Statement} {predicates : List Predicate} {name : String}
    (h : compileAll table family predicates = .ok q.conditions)
    (other : ∀ p ∈ predicates, ∀ column, Field.onTable table family p.field = .ok column →
      column.name ≠ name) (entry : Entry) :
    q.keeps c (Function.update line name entry) = q.keeps c line := by
  rw [Bool.eq_iff_iff, keeps_iff_passes h, keeps_iff_passes h]
  exact forall₂_congr fun p hp => passes_congr fun column found =>
    Function.update_of_ne (other p hp column found) _ _

end Predicate

/-! ### How a read is sorted

All reads are sorted by two columns, and shown as whole lines. So lines that are sorted alike agree
in the location key, and if the location key and the period tell lines apart, they are of different
periods. -/

namespace Relation

variable {r : Relation} {sortBy : String} {order : SortOrder} {predicates : List Predicate}
  {limit offset : Int} {q : Statement}

/-- The field of the location key is its column in every family. -/
theorem keyField_column {family : Family} {level : Level} {f : Field}
    (h : Field.find? family level.keyField = some f) : f.column = level.keyColumn := by
  have column : ∀ f ∈ Field.find? family level.keyField, f.column = level.keyColumn := by
    cases family <;> cases level <;> decide
  exact column f h

/-- A read is sorted by the column of its sort key, and then by the location key, which is always
sorted upwards. -/
theorem read_sortColumns (h : r.read sortBy order predicates limit offset = .ok q) :
    ∃ column, Field.onTable r.table r.family sortBy = .ok column ∧
      q.sortColumns = [(column.name, order), (r.level.keyColumn, .asc)] := by
  obtain ⟨sorted, -, -⟩ := read_eq_ok h
  obtain ⟨k, rest, first, others, keys⟩ :=
    List.forall₂_cons_left_iff.1 (Outcome.mapM_eq_ok_iff.1 sorted)
  obtain ⟨l, more, second, none_left, rfl⟩ := List.forall₂_cons_left_iff.1 others
  obtain rfl := List.forall₂_nil_left_iff.1 none_left
  obtain ⟨named, -⟩ | ⟨column, found, rfl⟩ := SortSpec.compile_eq_ok first
  · exact absurd named List.not_mem_nil
  obtain ⟨named, -⟩ | ⟨location, located, rfl⟩ := SortSpec.compile_eq_ok second
  · exact absurd named List.not_mem_nil
  obtain ⟨f, known, stored⟩ := Field.onTable_eq_ok_iff.1 located
  refine ⟨column, found, ?_⟩
  rw [Query.sortColumns, keys, ← keyField_column known, ← Table.name_of_column? stored]
  rfl

/-- A read shows whole lines of its relation. -/
theorem read_ofLines (h : r.read sortBy order predicates limit offset = .ok q) :
    q.OfLines r.table := by
  obtain ⟨sorted, -, hq⟩ := read_eq_ok h
  refine ⟨by rw [hq], by rw [hq], by rw [hq], fun k hk => ?_⟩
  obtain ⟨spec, -, compiled⟩ := Outcome.exists_of_mem_mapM sorted k hk
  obtain ⟨named, -⟩ | ⟨_, -, rfl⟩ := SortSpec.compile_eq_ok compiled
  · exact absurd named List.not_mem_nil
  · rfl

/-- The pages of a read are statements of their own, which differ from the read in their limit and
offset only. -/
theorem read_paged (h : r.read sortBy order predicates limit offset = .ok q) (size number : ℕ) :
    r.read sortBy order predicates size (number * size : ℕ) = .ok (q.paged size number) := by
  obtain ⟨sorted, conditions, hq⟩ := read_eq_ok h
  simp only [read, sorted, conditions, Outcome.ok_bind, Outcome.pure_eq_ok]
  rw [hq]
  rfl

/-- What tells the lines of a relation apart: the location key and the period. It is a list of
entries, in the order of the columns. -/
def rowKey (r : Relation) (line : Line) : List Entry :=
  (r.level.keyColumn :: (periodColumns r.grain).map Column.name).map line

/-- There is at most one line for a location in a period. This is what a key of the relation says of
its content. -/
def Keyed (r : Relation) (content : List Line) : Prop := (content.map r.rowKey).Nodup

instance (r : Relation) (content : List Line) : Decidable (r.Keyed content) :=
  inferInstanceAs (Decidable (List.Nodup _))

namespace Keyed

variable {r : Relation} {content : List Line}

theorem nodup (h : r.Keyed content) : content.Nodup := h.of_map

/-- A line is known from its location key and its period. -/
theorem eq_of_rowKey_eq (h : r.Keyed content) {a b : Line} (ha : a ∈ content) (hb : b ∈ content)
    (same : r.rowKey a = r.rowKey b) : a = b :=
  List.inj_on_of_nodup_map h ha hb same

end Keyed

end Relation

end PropertyMarket
