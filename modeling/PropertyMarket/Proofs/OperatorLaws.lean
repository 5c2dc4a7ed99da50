import Mathlib.Data.Set.Lattice
import Mathlib.Order.CompletePartialOrder
import PropertyMarket.Proofs.Acceptance
import PropertyMarket.Proofs.CellEntries
import PropertyMarket.Proofs.PickedLines

/-!
# Laws of operators

A comparison with a missing entry is neither true nor false, so a row without an entry is selected
neither by a comparison nor by its opposite. What makes up the rows again is the two of them and
the question whether the entry is missing. These are the laws of this kind; each of them holds
among the rows that any other predicates select.

A row is selected if what its conditions say together is true; one of which some condition says
nothing is not. Rows are told apart here by an index, since two rows can hold the same.

## Main definitions

* `Condition.fullVerdict`, `Condition.jointVerdict` — what one condition says of a line, patterns
  included, and what several of them say together
* `RowSet`, `RowSet.selected` — a table with its rows, and those that predicates select
* `RowSet.Splits`, `RowSet.SelectSame` — further predicates split what is selected, or do not matter
* `RowSet.Marks` — a predicate is true of some rows and of no others
* `RowSet.ComparedAs` — a value can be compared with whatever a column holds

## Main results

* `Condition.fullVerdict_eq_truth` — what is said of a line is what a condition denotes
* `RowSet.selected_append` — one predicate more selects those rows that it is true of
* `RowSet.operator_laws` — opposites and the missing entries make up the rows, an interval is two
  bounds, a list is the union of its values, and the order of predicates does not matter

## Implementation notes

Each law is reduced to one about sets of rows: a predicate is true of a set, and one predicate more
intersects with its set. That an opposite and the missing entries make up the rows is then a
statement about three sets, and so is that crossed bounds leave nothing.

Two hypotheses are unavoidable and are stated as they are. A value has to be of the kind that the
column holds, since otherwise the store does not compare at all; and the other predicates have to be
accepted, or nothing is selected that could be split.
-/

namespace PropertyMarket

/-! ### What conditions say together

A condition says true, false or unknown of a line, or it cannot be asked. A conjunction cannot be
asked if one of its parts cannot, and a row is selected only if all of them say true. -/

namespace Condition

variable (c : Collation) (likes : String → String → Bool) (line : Line)

/-- What a condition says of a line, patterns included. Whether a missing text matches is
unknown. -/
def fullVerdict : Condition → Option Truth
  | .matches term pattern => do
    match ← term.entryOf? line with
    | .null => some .unknown
    | .text s => some (.ofBool (likes pattern s))
    | _ => none
  | condition => condition.verdict c line

/-- What conditions say of a line together: true if all are true, false if one is false, and
otherwise unknown. It is nothing if one of them says nothing. -/
def jointVerdict : List Condition → Option Truth
  | [] => some .yes
  | condition :: conditions => do
    return (← condition.fullVerdict c likes line).and (← jointVerdict conditions)

variable {c likes line}

/-- Conditions are true together if each of them is true. So for what is selected it does not matter
in which order they are asked. -/
theorem jointVerdict_eq_yes_iff {conditions : List Condition} :
    jointVerdict c likes line conditions = some .yes ↔
      ∀ condition ∈ conditions, condition.fullVerdict c likes line = some .yes := by
  induction conditions with
  | nil => simp [jointVerdict]
  | cons condition conditions ih =>
    rw [List.forall_mem_cons, ← ih]
    show (condition.fullVerdict c likes line).bind (fun t =>
      (jointVerdict c likes line conditions).bind fun u => some (t.and u)) = some .yes ↔ _
    simp only [Option.bind_eq_some_iff, Option.some.injEq, Truth.and_eq_yes_iff]
    constructor
    · rintro ⟨_, said, _, together, rfl, rfl⟩
      exact ⟨said, together⟩
    · rintro ⟨said, together⟩
      exact ⟨_, said, _, together, rfl, rfl⟩

/-- Whether there is one of some values in a column is made up of what is said of each of them. -/
theorem exists_verdict_oneOf {term : Term} {e : Entry} {values : List Value} {holds : Value → Prop}
    (ht : term.entryOf? line = some e)
    (each : ∀ v ∈ values, ∃ t, (Entry.ofValue? v).bind (c.test .eq e) = some t ∧
      (t = .yes ↔ holds v)) :
    ∃ t, (oneOf term values).verdict c line = some t ∧ (t = .yes ↔ ∃ v ∈ values, holds v) := by
  have asked : ∃ truths, (values.mapM fun v => (Entry.ofValue? v).bind (c.test .eq e)) =
      some truths ∧ (.yes ∈ truths ↔ ∃ v ∈ values, holds v) := by
    induction values with
    | nil => exact ⟨[], rfl, by simp⟩
    | cons v values ih =>
      obtain ⟨t, first, yes⟩ := each v List.mem_cons_self
      obtain ⟨truths, rest, some_yes⟩ := ih fun w hw => each w (.tail _ hw)
      refine ⟨t :: truths, ?_, ?_⟩
      · rw [List.mapM_cons, first, rest]
        rfl
      · rw [List.mem_cons, List.exists_mem_cons_iff, some_yes, ← yes, eq_comm]
  obtain ⟨truths, asked, some_yes⟩ := asked
  refine ⟨truths.foldr Truth.or .no, ?_, Truth.foldr_or_eq_yes_iff.trans some_yes⟩
  show (term.entryOf? line).bind (fun entry => (values.mapM fun value =>
    (Entry.ofValue? value).bind (c.test .eq entry)).bind fun truths =>
      some (truths.foldr Truth.or .no)) = _
  rw [ht, Option.bind_some, asked]
  rfl

/-- **What is said of a line is what a condition denotes**, if both accounts say something. -/
theorem fullVerdict_eq_truth {d : Dialect} {env : Env} {condition : Condition} {t u : Truth}
    (sent : ∀ x, d.sent x = x) (shows : line.Shows env)
    (ht : condition.truth d [env] = .ok t)
    (hu : condition.fullVerdict .usual d.likes line = some u) : u = t := by
  cases condition with
  | «matches» term pattern =>
    obtain ⟨cell, hcell, ht⟩ := Outcome.bind_eq_ok_iff.1 ht
    obtain ⟨e, he, hu⟩ := Option.bind_eq_some_iff.1 hu
    obtain rfl := term.entryOf?_eq_cell shows he hcell
    cases cell with
    | null | text =>
      obtain rfl := Except.ok.inj ht
      exact (Option.some.inj hu).symm
    | truth | number => nomatch ht
  | _ => exact verdict_eq_truth sent shows ht hu

end Condition

/-! ### Selecting rows

Predicates are compiled before any row is looked at, so a selection fails for all rows or for none.
What a single predicate adds to a selection is a set of rows, if it can be asked of all of them. -/

/-- A table with its rows, and how the store compares and matches texts. The rows are indexed by any
type, so there may be infinitely many. -/
structure RowSet (ι : Type) where
  table : Table
  family : Family
  collation : Collation
  /-- Does the text match the pattern, whatever the case? -/
  likes : String → String → Bool
  rows : ι → Line

namespace RowSet

variable {ι : Type} (r : RowSet ι)

/-- The rows that predicates select, if they are accepted; otherwise the fault of the first that is
not. -/
def selected (predicates : List Predicate) : Except Fault (Set ι) := do
  let conditions ← Predicate.compileAll r.table r.family predicates
  return {i | Condition.jointVerdict r.collation r.likes (r.rows i) conditions = some .yes}

/-- Predicates select the same rows: both are accepted, and their sets of rows are equal. -/
def SelectSame (first second : List Predicate) : Prop :=
  ∃ rows, r.selected first = .ok rows ∧ r.selected second = .ok rows

/-- Each row that predicates select is selected by exactly one of some further predicates, if that
one is added to them, and nothing else is. The further ones are tried one at a time, not
together. -/
def Splits (predicates further : List Predicate) : Prop :=
  ∃ all parts, r.selected predicates = .ok all ∧
    further.mapM (fun p => r.selected (predicates ++ [p])) = .ok parts ∧
    all = ⋃ part ∈ parts, part ∧ parts.Pairwise Disjoint

/-- A predicate is true of some rows and of no others. Of a row that it is not true of it is false
or unknown. -/
def Marks (p : Predicate) (rows : Set ι) : Prop :=
  ∃ condition, p.compile r.table r.family = .ok condition ∧
    ∀ i, condition.fullVerdict r.collation r.likes (r.rows i) = some .yes ↔ i ∈ rows

variable {r} {predicates : List Predicate} {all : Set ι}

theorem selected_eq_ok_iff : r.selected predicates = .ok all ↔
    ∃ conditions, Predicate.compileAll r.table r.family predicates = .ok conditions ∧
      all = {i | ∀ condition ∈ conditions,
        condition.fullVerdict r.collation r.likes (r.rows i) = some .yes} := by
  rw [selected, Outcome.bind_eq_ok_iff]
  refine exists_congr fun conditions => and_congr_right fun _ => ?_
  rw [Outcome.pure_eq_ok, Except.ok.injEq, eq_comm]
  simp only [Condition.jointVerdict_eq_yes_iff]

/-- One predicate more selects those of the rows that it is true of. -/
theorem selected_append {p : Predicate} {rows : Set ι} (h : r.selected predicates = .ok all)
    (marks : r.Marks p rows) : r.selected (predicates ++ [p]) = .ok (all ∩ rows) := by
  obtain ⟨conditions, compiled, rfl⟩ := selected_eq_ok_iff.1 h
  obtain ⟨condition, hp, said⟩ := marks
  have last : Predicate.compileAll r.table r.family [p] = .ok [condition] :=
    Outcome.mapM_eq_ok_iff.2 (.cons hp .nil)
  refine selected_eq_ok_iff.2 ⟨_, Outcome.mapM_append_eq_ok compiled last, ?_⟩
  ext i
  simp only [Set.mem_inter_iff, Set.mem_ofPred_eq, List.forall_mem_append,
    List.forall_mem_singleton, said]

/-- Predicates split what is selected if they split all rows. -/
theorem splits_of_marks {further : List Predicate} {sets : List (Set ι)}
    (h : r.selected predicates = .ok all) (marks : List.Forall₂ r.Marks further sets)
    (cover : ∀ i, ∃ rows ∈ sets, i ∈ rows) (apart : sets.Pairwise Disjoint) :
    r.Splits predicates further := by
  refine ⟨all, sets.map (all ∩ ·), h, ?_, ?_, ?_⟩
  · rw [Outcome.mapM_eq_ok_iff, List.forall₂_map_right_iff]
    exact marks.imp fun _ _ => selected_append h
  · ext i
    simpa using fun _ => cover i
  · refine List.pairwise_map.2 (apart.imp fun disjoint => ?_)
    exact disjoint.mono Set.inter_subset_right Set.inter_subset_right

/-- Predicates in another order select the same rows. -/
theorem selectSame_of_perm {other : List Predicate} (h : r.selected predicates = .ok all)
    (perm : other.Perm predicates) : r.SelectSame other predicates := by
  obtain ⟨conditions, compiled, rfl⟩ := selected_eq_ok_iff.1 h
  obtain ⟨conditions', compiled', same⟩ := Outcome.exists_mapM_of_perm perm compiled
  refine ⟨_, selected_eq_ok_iff.2 ⟨conditions', compiled', ?_⟩, h⟩
  simp only [same.mem_iff]

end RowSet

/-! ### Comparing entries

What a column holds is of one kind, or missing. In both cases a comparison says something, and it
says true only of what is there and compares so. -/

/-- Both are texts, or both are numbers. -/
def Entry.SameKind : Entry → Entry → Prop
  | .text _, .text _ | .number _, .number _ => True
  | _, _ => False

namespace Collation

variable {c : Collation} {held e : Entry}

/-- What a comparison says of what a column holds: it is true only if there is something, and if
that compares so. -/
theorem exists_test (comparator : Comparator) (h : held = .null ∨ held.SameKind e) :
    ∃ t, c.test comparator held e = some t ∧
      (t = .yes ↔ held ≠ .null ∧ comparator.Relates (c.rank held) (c.rank e)) := by
  have compared (some_entry : held ≠ .null) : c.relates comparator held e = .yes ↔
      held ≠ .null ∧ comparator.Relates (c.rank held) (c.rank e) := by
    rw [relates, Truth.ofBool_eq_yes, Comparator.accepts_compare, and_iff_right some_entry]
  cases held with
  | null => exact ⟨.unknown, by cases e <;> rfl, by simp⟩
  | truth b => exact (h.resolve_left Entry.noConfusion).elim
  | text s =>
    cases e with
    | text s' => exact ⟨_, rfl, compared Entry.noConfusion⟩
    | null | truth | number => exact (h.resolve_left Entry.noConfusion).elim
  | number x =>
    cases e with
    | number y => exact ⟨_, rfl, compared Entry.noConfusion⟩
    | null | truth | text => exact (h.resolve_left Entry.noConfusion).elim

end Collation

/-! ### What predicates are true of

For each operator, the set of rows that it is true of, in terms of what the column holds. A
comparison and its opposite have complementary sets, up to the rows where nothing is held. -/

namespace RowSet

variable {ι : Type} {r : RowSet ι} {predicates : List Predicate} {field : String}
  {column : Column}

/-- A value is compared as an entry, and can be compared with whatever a column holds: all of it is
of the kind of the entry, unless it is missing. -/
structure ComparedAs (r : RowSet ι) (column : Column) (value : Value) (e : Entry) : Prop where
  bound : Entry.ofValue? value = some e
  single : e.SameKind e
  held : ∀ i, r.rows i column.name = .null ∨ (r.rows i column.name).SameKind e

/-- The rows in which a column holds something that compares so with an entry. -/
def related (r : RowSet ι) (column : Column) (comparator : Comparator) (e : Entry) : Set ι :=
  {i | r.rows i column.name ≠ .null ∧
    comparator.Relates (r.collation.rank (r.rows i column.name)) (r.collation.rank e)}

/-- The rows in which a column holds what a value is compared as. -/
def holding (r : RowSet ι) (column : Column) (value : Value) : Set ι :=
  {i | ∃ e, r.ComparedAs column value e ∧ i ∈ r.related column .eq e}

/-- The rows in which a column holds nothing. -/
def missing (r : RowSet ι) (column : Column) : Set ι := {i | r.rows i column.name = .null}

namespace ComparedAs

variable {value : Value} {e : Entry}

/-- What can be compared is a single value, and no truth value. -/
theorem isSingle (h : r.ComparedAs column value e) : value.IsSingle ∧ ¬value.IsFlag := by
  obtain ⟨bound, single, -⟩ := h
  cases value with
  | null | bool =>
    obtain rfl := Option.some.inj bound
    exact single.elim
  | list | record => nomatch bound
  | _ => simp [Value.IsSingle, Value.IsFlag]

theorem mem_holding {i : ι} (h : r.ComparedAs column value e) :
    i ∈ r.holding column value ↔ i ∈ r.related column .eq e := by
  refine ⟨?_, fun related => ⟨e, h, related⟩⟩
  rintro ⟨e', h', related⟩
  obtain rfl := Option.some.inj (h.bound.symm.trans h'.bound)
  exact related

end ComparedAs

variable (found : Field.onTable r.table r.family field = .ok column)

section Marks

include found

/-- A predicate is true of what the condition of its operator is true of. -/
theorem marks_of_apply {p : Predicate} {o : Operator} {condition : Condition} {rows : Set ι}
    (named : p.field = field) (word : p.operator = Vocabulary.word o)
    (applied : o.apply p (.ofColumn r.table column) = .ok condition)
    (said : ∀ i, ∃ t, condition.fullVerdict r.collation r.likes (r.rows i) = some t ∧
      (t = .yes ↔ i ∈ rows)) : r.Marks p rows := by
  subst named
  refine ⟨condition, Predicate.compile_of word found applied, fun i => ?_⟩
  obtain ⟨t, verdict, yes⟩ := said i
  rw [verdict, Option.some.injEq, yes]

theorem marks_isNull : r.Marks ⟨field, "is_null", .bool true⟩ (r.missing column) := by
  refine marks_of_apply found (o := .isNull) rfl rfl rfl fun i => ⟨_, rfl, ?_⟩
  rw [Truth.ofBool_eq_yes, decide_eq_true_iff]
  rfl

theorem marks_isNotNull : r.Marks ⟨field, "is_null", .bool false⟩ (r.missing column)ᶜ := by
  refine marks_of_apply found (o := .isNull) rfl rfl rfl fun i => ⟨_, rfl, ?_⟩
  rw [Truth.ofBool_eq_yes, decide_eq_true_iff]
  rfl

variable {value : Value} {e : Entry}

/-- A comparison is true of the rows that compare so. -/
theorem marks_comparison {p : Predicate} {o : Operator} (comparator : Comparator)
    (h : r.ComparedAs column p.value e) (named : p.field = field)
    (word : p.operator = Vocabulary.word o)
    (compares : ∀ term, o.apply p term = p.comparison comparator term) :
    r.Marks p (r.related column comparator e) := by
  have flag (b : Bool) : p.value ≠ .bool b := fun hb => h.isSingle.2 ⟨b, hb⟩
  have applied := (compares (.ofColumn r.table column)).trans
    (Predicate.comparison_ok (Value.isScalar_iff.2 h.isSingle.1) flag comparator _)
  refine marks_of_apply found named word applied fun i => ?_
  obtain ⟨t, tested, yes⟩ := r.collation.exists_test comparator (h.held i)
  refine ⟨t, ?_, yes⟩
  exact (Condition.verdict_compare comparator (e := r.rows i column.name) rfl h.bound).trans tested

/-- An interval is true of the rows that lie within both of its ends. If the ends cross there are
none, since the order of the entries is total. -/
theorem marks_between {low high : Value} {least most : Entry}
    (hl : r.ComparedAs column low least) (hh : r.ComparedAs column high most) :
    r.Marks ⟨field, "between", .list [low, high]⟩
      (r.related column .ge least ∩ r.related column .le most) := by
  have applied (term : Term) :
      Operator.between.apply ⟨field, "between", .list [low, high]⟩ term =
        .ok (.between term low high) := by
    rw [Operator.apply]
    exact if_pos (Bool.and_eq_true_iff.2
      ⟨Value.isScalar_iff.2 hl.isSingle.1, Value.isScalar_iff.2 hh.isSingle.1⟩)
  refine marks_of_apply found (o := .between) rfl rfl (applied _) fun i => ?_
  obtain ⟨above, tested, above_yes⟩ := r.collation.exists_test .ge (hl.held i)
  obtain ⟨below, tested', below_yes⟩ := r.collation.exists_test .le (hh.held i)
  refine ⟨above.and below, ?_, Truth.and_eq_yes_iff.trans (and_congr above_yes below_yes)⟩
  exact Condition.verdict_between (e := r.rows i column.name) rfl hl.bound hh.bound tested tested'

theorem marks_equals (h : r.ComparedAs column value e) :
    r.Marks ⟨field, "=", value⟩ (r.holding column value) := by
  have same : r.holding column value = r.related column .eq e := Set.ext fun _ => h.mem_holding
  rw [same]
  exact marks_comparison found (o := .compare .eq) .eq h rfl rfl fun _ => rfl

/-- A list is true of the rows that hold one of its values. -/
theorem marks_oneOf {values : List Value} (nonempty : values ≠ [])
    (compared : ∀ v ∈ values, ∃ e, r.ComparedAs column v e) :
    r.Marks ⟨field, "in", .list values⟩
      {i | ∃ v ∈ values, i ∈ r.holding column v} := by
  have applied (term : Term) : Operator.oneOf.apply ⟨field, "in", .list values⟩ term =
      .ok (.oneOf term values) := by
    rw [Operator.apply]
    refine if_pos (Bool.and_eq_true_iff.2 ⟨by simpa using nonempty, List.all_eq_true.2 ?_⟩)
    intro v hv
    obtain ⟨e, h⟩ := compared v hv
    exact Value.isScalar_iff.2 h.isSingle.1
  refine marks_of_apply found (o := .oneOf) rfl rfl (applied _) fun i => ?_
  refine Condition.exists_verdict_oneOf (e := r.rows i column.name) rfl fun v hv => ?_
  obtain ⟨e, h⟩ := compared v hv
  obtain ⟨t, tested, yes⟩ := r.collation.exists_test .eq (h.held i)
  exact ⟨t, (congrArg (Option.bind · _) h.bound).trans tested, yes.trans h.mem_holding.symm⟩

/-- Missing entries and all others split what is selected. -/
theorem splits_isNull (h : r.selected predicates = .ok all) :
    r.Splits predicates [⟨field, "is_null", .bool true⟩, ⟨field, "is_null", .bool false⟩] := by
  refine splits_of_marks h (.cons (marks_isNull found) (.cons (marks_isNotNull found) .nil))
    (fun i => ?_) (List.pairwise_pair.2 disjoint_compl_right)
  obtain null | entry := em (i ∈ r.missing column)
  · exact ⟨_, List.mem_cons_self, null⟩
  · exact ⟨_, List.mem_cons_of_mem _ List.mem_cons_self, entry⟩

/-- A comparison, its opposite and the missing entries split what is selected. -/
theorem splits_opposite {first second : Predicate} {comparator opposite : Comparator}
    (h : r.selected predicates = .ok all)
    (opposed : ∀ x y : r.collation.Ranked, opposite.Relates x y ↔ ¬comparator.Relates x y)
    (hfirst : r.Marks first (r.related column comparator e))
    (hsecond : r.Marks second (r.related column opposite e)) :
    r.Splits predicates [first, second, ⟨field, "is_null", .bool true⟩] := by
  refine splits_of_marks h (.cons hfirst (.cons hsecond (.cons (marks_isNull found) .nil)))
    (fun i => ?_) ?_
  · obtain null | entry := em (r.rows i column.name = .null)
    · exact ⟨r.missing column, by simp, null⟩
    · obtain yes | no := em (comparator.Relates (r.collation.rank (r.rows i column.name))
        (r.collation.rank e))
      · exact ⟨_, List.mem_cons_self, entry, yes⟩
      · exact ⟨r.related column opposite e, by simp, entry, (opposed _ _).2 no⟩
  · have apart : Disjoint (r.related column comparator e) (r.related column opposite e) :=
      Set.disjoint_left.2 fun i yes no => (opposed _ _).1 no.2 yes.2
    have some_entry (c : Comparator) : Disjoint (r.related column c e) (r.missing column) :=
      Set.disjoint_left.2 fun i related null => related.1 null
    simp [apart, some_entry]

end Marks

/-! ### Laws

Everything above holds of one predicate at a time. Here the laws are put together, for one field and
among the rows that any other predicates select. -/

/-- **Laws of the operators on one field**, among the rows that other predicates select.

The missing entries and the others make up the rows; so do a bound, its opposite and the missing
entries, or a value, its opposite and the missing entries. An interval selects what its two bounds
select together, which is nothing if they cross. A list selects what its values select each. The
order of the predicates does not matter. -/
theorem operator_laws {conditions : List Condition}
    (accepted : Predicate.compileAll r.table r.family predicates = .ok conditions)
    (found : Field.onTable r.table r.family field = .ok column) :
    r.Splits predicates [⟨field, "is_null", .bool true⟩, ⟨field, "is_null", .bool false⟩] ∧
    (∀ v e, r.ComparedAs column v e →
      r.Splits predicates
        [⟨field, "gte", v⟩, ⟨field, "<", v⟩, ⟨field, "is_null", .bool true⟩] ∧
      r.Splits predicates
        [⟨field, "=", v⟩, ⟨field, "!=", v⟩, ⟨field, "is_null", .bool true⟩]) ∧
    (∀ low high least most, r.ComparedAs column low least → r.ComparedAs column high most →
      r.SelectSame (predicates ++ [⟨field, "between", .list [low, high]⟩])
        (predicates ++ [⟨field, "gte", low⟩, ⟨field, "lte", high⟩]) ∧
      (r.collation.rank most < r.collation.rank least →
        r.selected (predicates ++ [⟨field, "between", .list [low, high]⟩]) = .ok ∅)) ∧
    (∀ values, values ≠ [] → (∀ v ∈ values, ∃ e, r.ComparedAs column v e) →
      ∃ parts, values.mapM (fun v => r.selected (predicates ++ [⟨field, "=", v⟩])) = .ok parts ∧
        r.selected (predicates ++ [⟨field, "in", .list values⟩]) = .ok (⋃ part ∈ parts, part)) ∧
    ∀ other, other.Perm predicates → r.SelectSame other predicates := by
  obtain ⟨all, selects⟩ : ∃ all, r.selected predicates = .ok all :=
    ⟨_, selected_eq_ok_iff.2 ⟨conditions, accepted, rfl⟩⟩
  refine ⟨splits_isNull found selects, fun v e h => ⟨?bounds, ?values⟩,
    fun low high least most hl hh => ⟨?both, ?crossed⟩, fun values nonempty compared => ?list,
    fun other perm => selectSame_of_perm selects perm⟩
  case bounds =>
    exact splits_opposite found selects (fun _ _ => not_le.symm)
      (marks_comparison found (o := .atLeast) .ge h rfl rfl fun _ => rfl)
      (marks_comparison found (o := .compare .lt) .lt h rfl rfl fun _ => rfl)
  case values =>
    exact splits_opposite found selects (fun _ _ => Iff.rfl)
      (marks_comparison found (o := .compare .eq) .eq h rfl rfl fun _ => rfl)
      (marks_comparison found (o := .compare .ne) .ne h rfl rfl fun _ => rfl)
  case both =>
    have above : r.Marks ⟨field, "gte", low⟩ (r.related column .ge least) :=
      marks_comparison found (o := .atLeast) .ge hl rfl rfl fun _ => rfl
    have below : r.Marks ⟨field, "lte", high⟩ (r.related column .le most) :=
      marks_comparison found (o := .atMost) .le hh rfl rfl fun _ => rfl
    have within := selected_append (selected_append selects above) below
    rw [List.append_assoc, Set.inter_assoc] at within
    exact ⟨_, selected_append selects (marks_between found hl hh), within⟩
  case crossed =>
    intro crossed
    rw [selected_append selects (marks_between found hl hh)]
    refine congrArg Except.ok (Set.eq_empty_iff_forall_notMem.2 ?_)
    rintro i ⟨-, above, below⟩
    exact absurd (above.2.trans below.2) (not_le.2 crossed)
  case list =>
    refine ⟨values.map fun v => all ∩ r.holding column v, Outcome.mapM_eq_ok_map fun v hv => ?_, ?_⟩
    · obtain ⟨e, h⟩ := compared v hv
      exact selected_append selects (marks_equals found h)
    · rw [selected_append selects (marks_oneOf found nonempty compared)]
      refine congrArg Except.ok (Set.ext fun i => ?_)
      simp

/-- Three sales of a house in a year, the first one without a price: the row that neither a bound
nor its opposite selects. -/
def houses : RowSet (Fin 3) where
  table := .sales
  family := .transactions
  collation := .usual
  likes pattern s := pattern == s
  rows i name :=
    if name = "valeurfonc" then [Entry.null, .int 100000, .int 300000].get i
    else if name = "libtypbien" then .text "maison"
    else .int 2020

/-- The houses of the year. -/
def ofYear : List Predicate :=
  [⟨"propertyTypeLabel", "ilike", .text "maison"⟩, ⟨"year", "=", .int 2020⟩]

theorem houses_comparedAs (n : ℤ) :
    houses.ComparedAs ⟨"valeurfonc", .numeric 14 2, true⟩ (.int n) (.int n) := by
  refine ⟨rfl, trivial, fun i => ?_⟩
  match i with
  | 0 => exact .inl rfl
  | 1 | 2 => exact .inr trivial

/-- All laws at prices, among the houses of a year. -/
theorem operator_laws_houses :
    (∃ conditions, Predicate.compileAll .sales .transactions ofYear = .ok conditions) ∧
    Field.onTable .sales .transactions "price" = .ok ⟨"valeurfonc", .numeric 14 2, true⟩ ∧
    houses.selected ofYear = .ok Set.univ ∧
    houses.Splits ofYear [⟨"price", "gte", .int 200000⟩, ⟨"price", "<", .int 200000⟩,
      ⟨"price", "is_null", .bool true⟩] ∧
    houses.selected (ofYear ++ [⟨"price", "between", .list [.int 300000, .int 100000]⟩]) =
      .ok ∅ ∧
    (∃ parts, [Value.int 100000, .int 300000].mapM (fun v =>
        houses.selected (ofYear ++ [⟨"price", "=", v⟩])) = .ok parts ∧
      houses.selected (ofYear ++ [⟨"price", "in", .list [.int 100000, .int 300000]⟩]) =
        .ok (⋃ part ∈ parts, part)) ∧
    houses.SelectSame ofYear.reverse ofYear := by
  have found : Field.onTable .sales .transactions "price" =
      .ok ⟨"valeurfonc", .numeric 14 2, true⟩ := rfl
  have accepted : Predicate.compileAll .sales .transactions ofYear = .ok
      [.matches (.column "property_sales" "libtypbien") "maison",
        .compare .eq (.column "property_sales" "anneemut") (.bound (.int 2020))] := rfl
  have crossed : Collation.usual.rank (.int 100000) < Collation.usual.rank (.int 300000) :=
    Collation.usual.rank_number_lt.2 (Magnitude.finite_strictMono (by norm_num))
  have compared : ∀ v ∈ [Value.int 100000, .int 300000],
      ∃ e, houses.ComparedAs ⟨"valeurfonc", .numeric 14 2, true⟩ v e := by
    simpa using ⟨⟨_, houses_comparedAs 100000⟩, ⟨_, houses_comparedAs 300000⟩⟩
  obtain ⟨-, split, interval, list, perm⟩ := operator_laws (r := houses) accepted found
  refine ⟨⟨_, accepted⟩, found, ?_, (split _ _ (houses_comparedAs 200000)).1,
    (interval _ _ _ _ (houses_comparedAs 300000) (houses_comparedAs 100000)).2 crossed,
    list _ (by simp) compared,
    perm _ (List.reverse_perm _)⟩
  refine selected_eq_ok_iff.2 ⟨_, accepted, (Set.eq_univ_of_forall fun i => ?_).symm⟩
  simp only [Set.mem_ofPred_eq, List.forall_mem_cons]
  exact ⟨rfl, rfl, nofun⟩

end RowSet

end PropertyMarket
