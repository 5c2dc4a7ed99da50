import PropertyMarket.Compile.Select
import PropertyMarket.Proofs.Availability

/-!
# What is compiled of a name

Each part of a statement is compiled of a name in a request, and each of them by looking the name
up among the fields. For each kind of part there is one lemma that says all of what the part can
be once it is compiled; whatever else is known of statements is known from these.

## Main definitions

* `Predicate.operands` — the values of a predicate
* `Predicate.Asks` — what a predicate can ask of a term

## Main results

* `Predicate.compile_eq_ok`, `SortSpec.compile_eq_ok` — conditions and sort keys
* `Operator.asks_of_apply` — the conditions that an operator makes of a value
* `Produced.ofSale_eq_ok`, `Produced.groupBy_eq_ok` — columns that are shown, and grouped by
* `MetricSpec.compile_eq_ok`, `Computation.compile_eq_ok` — aggregates and computations

## Implementation notes

Each lemma is an inversion: from a part that has been compiled it recovers everything that the
compiler has looked up for it, guards included. They are stated once and in full, so that what is
proved of statements elsewhere (that they only name columns of the allow-list, that values only
stand in bound places, that a group is sorted by what it is grouped by) is a short case analysis
over these cases, and does not depend on how the compiler is written.
-/

namespace PropertyMarket

variable {table : Table} {family : Family}

/-- The values of a predicate, in the order in which its condition binds them: one, two, or those of
a list. -/
def Predicate.operands (p : Predicate) : List Value :=
  match p.value with
  | .list items => items
  | v => [v]

theorem Field.numericOnTable_eq_ok {operation name : String} {c : Column}
    (h : numericOnTable table family operation name = .ok c) :
    ∃ f, find? family name = some f ∧ f.numeric = true ∧ table.column? f.column = some c := by
  obtain ⟨f, hf, h⟩ := Outcome.bind_eq_ok_iff.1 h
  split at h
  · exact ⟨f, resolve_eq_ok_iff.1 hf, ‹_›, columnOn_eq_ok_iff.1 h⟩
  · nomatch h

/-! ### Conditions

A predicate becomes one condition on one column. Its operator decides which, and the value that it
is given has to be of the form that the operator takes. `Asks` lists what can come of it without
naming the operator, since for most purposes only the form of the condition matters. -/

/-- What a predicate can ask of a term: a comparison with its value, or something of the term
alone. -/
inductive Predicate.Asks (p : Predicate) (term : Term) : Condition → Prop
  | compared (c : Comparator) (plain : p.operands = [p.value]) :
    Asks p term (.compare c term (.bound p.value))
  | flagged (c : Comparator) {b : Bool} (flag : p.value = .bool b) :
    Asks p term (.compare c term (.truth b))
  | between {low high : Value} (pair : p.value = .list [low, high]) :
    Asks p term (.between term low high)
  | oneOf {values : List Value} (items : p.value = .list values) :
    Asks p term (.oneOf term values)
  | «matches» {pattern : String} (text : p.value = .text pattern) :
    Asks p term (.matches term pattern)
  | isNull (flag : p.value = .bool true) : Asks p term (.isNull term)
  | isNotNull (flag : p.value = .bool false) : Asks p term (.isNotNull term)

theorem Predicate.asks_of_comparison {p : Predicate} {c : Comparator} {term : Term}
    {condition : Condition} (h : p.comparison c term = .ok condition) :
    p.Asks term condition := by
  obtain ⟨field, operator, value⟩ := p
  rw [comparison] at h
  split at h
  · rename_i scalar
    cases value with
    | bool b =>
      simp only [Comparator.withValue] at h
      split at h
      · nomatch h
      · obtain rfl := Except.ok.inj h
        exact .flagged c rfl
    | null | list | record => nomatch scalar
    | _ =>
      obtain rfl := Except.ok.inj h
      exact .compared c rfl
  · nomatch h

/-- The condition of an operator is one of those that its predicate can ask. Of the operators, only
those that ask about null turn their value into a choice; all others pass it on to be bound. -/
theorem Operator.asks_of_apply {o : Operator} {p : Predicate} {term : Term}
    {condition : Condition} (h : o.apply p term = .ok condition) : p.Asks term condition := by
  cases o with
  | compare c => exact Predicate.asks_of_comparison h
  | atLeast => exact Predicate.asks_of_comparison (c := .ge) h
  | atMost => exact Predicate.asks_of_comparison (c := .le) h
  | between =>
    simp only [apply] at h
    split at h
    · split at h
      · exact Except.ok.inj h ▸ .between ‹_›
      · nomatch h
    · nomatch h
  | oneOf =>
    simp only [apply] at h
    split at h
    · split at h
      · exact Except.ok.inj h ▸ .oneOf ‹_›
      · nomatch h
    · nomatch h
  | «matches» =>
    simp only [apply] at h
    split at h
    · exact Except.ok.inj h ▸ .matches ‹_›
    · nomatch h
  | isNull =>
    simp only [apply] at h
    split at h
    · rename_i b flag
      obtain rfl := Except.ok.inj h
      cases b
      · exact .isNotNull flag
      · exact .isNull flag
    · nomatch h

/-- A condition is that of a known operator on the column of a field. A name that is no operator
never becomes a condition, and neither does a field that the table does not hold. -/
theorem Predicate.compile_eq_ok {p : Predicate} {condition : Condition}
    (h : p.compile table family = .ok condition) :
    ∃ o c, p.operator = Vocabulary.word (α := Operator) o ∧
      Field.onTable table family p.field = .ok c ∧
      o.apply p (.ofColumn table c) = .ok condition := by
  rw [compile] at h
  cases ho : Vocabulary.ofWord? (α := Operator) p.operator with
  | none =>
    rw [ho] at h
    nomatch h
  | some o =>
    rw [ho] at h
    obtain ⟨c, hc, h⟩ := Outcome.bind_eq_ok_iff.1 h
    exact ⟨o, c, (Vocabulary.word_of_ofWord? ho).symm, hc, h⟩

/-! ### Sort keys and what is shown

What is shown and what is sorted by are looked up by name as well. Here the name of a field is also
used as the label of its column, which is why a sort key may be a label that has been produced
before. -/

/-- A sort key is a label that may be named, or the column of a field. Nothing in the second case
asks that rows are grouped by the field: a grouped request may be sorted by any field at all. -/
theorem SortSpec.compile_eq_ok {labels : List String} {s : SortSpec} {k : SortKey}
    (h : s.compile table family labels = .ok k) :
    (s.field ∈ labels ∧ k = ⟨.label s.field, s.order.getD .asc⟩) ∨
      ∃ c, Field.onTable table family s.field = .ok c ∧
        k = ⟨.term (.ofColumn table c), s.order.getD .asc⟩ := by
  rw [compile] at h
  split at h
  · rename_i listed
    exact .inl ⟨by simpa using listed, (Except.ok.inj h).symm⟩
  · obtain ⟨c, hc, h⟩ := Outcome.bind_eq_ok_iff.1 h
    exact .inr ⟨c, hc, (Except.ok.inj h).symm⟩

namespace Produced

/-- What is shown of a sale is the column of a field, under the name of the field. -/
theorem ofSale_eq_ok {name : String} {p : Produced} (h : ofSale name = .ok p) :
    ∃ c, Field.onTable .sales .transactions name = .ok c ∧ p = ⟨name, .ofColumn .sales c⟩ := by
  obtain ⟨c, hc, h⟩ := Outcome.bind_eq_ok_iff.1 h
  exact ⟨c, hc, (Except.ok.inj h).symm⟩

/-- What is grouped by is the column of a groupable field, under the name of the field. -/
theorem groupBy_eq_ok {name : String} {p : Produced} (h : groupBy table family name = .ok p) :
    ∃ f c, Field.find? family name = some f ∧ f.groupable = true ∧
      table.column? f.column = some c ∧ p = ⟨name, .ofColumn table c⟩ := by
  obtain ⟨f, hf, h⟩ := Outcome.bind_eq_ok_iff.1 h
  split at h
  · obtain ⟨c, hc, h⟩ := Outcome.bind_eq_ok_iff.1 h
    exact ⟨f, c, Field.resolve_eq_ok_iff.1 hf, ‹_›, Field.columnOn_eq_ok_iff.1 hc,
      (Except.ok.inj h).symm⟩
  · nomatch h

end Produced

/-- An aggregate is taken of the column of a field, which is numeric unless values are counted. -/
theorem MetricSpec.compile_eq_ok {m : MetricSpec} {p : Produced}
    (h : m.compile table family = .ok p) :
    ∃ a f c, m.metric = Vocabulary.word (α := Aggregate) a ∧
      Field.find? family m.field = some f ∧ (a ≠ .count → f.numeric = true) ∧
      table.column? f.column = some c ∧ p = ⟨m.label, a.term (.ofColumn table c)⟩ := by
  rw [compile] at h
  cases ha : Vocabulary.ofWord? (α := Aggregate) m.metric with
  | none =>
    rw [ha] at h
    nomatch h
  | some a =>
    rw [ha] at h
    have word := (Vocabulary.word_of_ofWord? ha).symm
    dsimp only at h
    split at h
    · rename_i counted
      obtain ⟨c, hc, h⟩ := Outcome.bind_eq_ok_iff.1 h
      obtain ⟨f, hf, hc⟩ := Field.onTable_eq_ok_iff.1 hc
      exact ⟨a, f, c, word, hf, absurd counted, hc, (Except.ok.inj h).symm⟩
    · obtain ⟨c, hc, h⟩ := Outcome.bind_eq_ok_iff.1 h
      obtain ⟨f, hf, numeric, hc⟩ := Field.numericOnTable_eq_ok hc
      exact ⟨a, f, c, word, hf, fun _ => numeric, hc, (Except.ok.inj h).symm⟩

/-- A percentile is taken of the column of a numeric field; prices by area need no field of the
request. -/
theorem Computation.compile_eq_ok {k : Computation} {p : Produced}
    (h : k.compile table family = .ok p) :
    (∃ name percent f c, k = .percentile name percent ∧ Field.find? family name = some f ∧
      f.numeric = true ∧ table.column? f.column = some c ∧
      p = ⟨k.label, .percentile (.double (percent / 100)) (.ofColumn table c)⟩) ∨
    ∃ price area, k = .pricePerArea ∧ Field.onTable table family "price" = .ok price ∧
      Field.onTable table family "floorArea" = .ok area ∧
      p = ⟨k.label, ratio (.ofColumn table price) (.ofColumn table area) area.type⟩ := by
  cases k with
  | percentile name percent =>
    obtain ⟨c, hc, h⟩ := Outcome.bind_eq_ok_iff.1 h
    obtain ⟨f, hf, numeric, hc⟩ := Field.numericOnTable_eq_ok hc
    exact .inl ⟨name, percent, f, c, rfl, hf, numeric, hc, (Except.ok.inj h).symm⟩
  | pricePerArea =>
    obtain ⟨price, hprice, h⟩ := Outcome.bind_eq_ok_iff.1 h
    obtain ⟨area, harea, h⟩ := Outcome.bind_eq_ok_iff.1 h
    exact .inr ⟨price, area, rfl, hprice, harea, (Except.ok.inj h).symm⟩

end PropertyMarket
