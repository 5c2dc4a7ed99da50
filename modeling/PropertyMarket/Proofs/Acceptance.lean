import PropertyMarket.Proofs.Refusals

/-!
# Which predicates are accepted

Three things are asked of a predicate, always in this order: is its operator known, is its field
offered, and does its value fit the operator. So a predicate with several faults is refused for
the first of the three, and of several predicates the first refused one decides.

What fits an operator is said here by the shape of the value alone, without compiling anything. A
comparison takes a single value, that is, neither null nor a collection. Truth values are single
values, but they have no order: a comparison that needs one refuses them in a way of its own.

## Main definitions

* `Operator.Takes` — the values that fit an operator
* `Operator.Makes` — the condition that an operator makes of a term and a value
* `Predicate.Acceptable`, `Predicate.Becomes` — a predicate has a condition, and which one
* `Predicate.RefusedAs` — why a predicate is refused, and how that is reported

## Main results

* `Operator.outcome` — an operator makes a condition of the values that fit, and of no others
* `Predicate.compile_cases` — so does a predicate, in the order of the three questions
* `Predicate.compileAll_cases` — predicates have all of their conditions, or the first refusal

## Implementation notes

The relations `Operator.Makes` and `Predicate.RefusedAs` restate what a compiled predicate is and
why it is refused, one constructor for each case, and the theorems about single predicates are case
analyses on the operator. Only the list of predicates needs an induction: the first predicate that
is refused decides, which is what `Outcome.mapM_eq_error_iff` says of any fallible step along a
list.

Asking for the order of truth values is kept apart from the other refusals. It fails in the
comparison itself and not in the check of the value, so its error names no field and is not reported
as an invalid value.
-/

namespace PropertyMarket

/-! ### Values that fit

What an operator takes depends on the shape of the value only: on whether it is null, a single value
or a collection, and for a comparison that needs an order on whether it is a truth value. The field
does not matter, and neither does its type. -/

/-- A single value: neither null nor a collection. -/
def Value.IsSingle (v : Value) : Prop :=
  v ≠ .null ∧ (∀ items, v ≠ .list items) ∧ ∀ fields, v ≠ .record fields

/-- A truth value. -/
def Value.IsFlag (v : Value) : Prop := ∃ b, v = .bool b

theorem Value.isScalar_iff {v : Value} : v.isScalar = true ↔ v.IsSingle := by
  cases v <;> simp [isScalar, IsSingle]

theorem Value.IsFlag.isSingle {v : Value} (h : v.IsFlag) : v.IsSingle := by
  obtain ⟨b, rfl⟩ := h
  exact isScalar_iff.1 rfl

/-- A comparison takes single values, and truth values only if it needs no order. A text, a number
of any kind and a truth value are single values; null and collections are not. -/
def Comparator.Takes (c : Comparator) (v : Value) : Prop :=
  v.IsSingle ∧ (v.IsFlag → c = .eq ∨ c = .ne)

/-- The comparison that an operator is, if it is one. -/
def Operator.comparator? : Operator → Option Comparator
  | .compare c => some c
  | .atLeast => some .ge
  | .atMost => some .le
  | .between | .oneOf | .matches | .isNull => none

/-- The values that fit an operator: a single value for a comparison, two of them for an interval,
at least one for a list, a text for a pattern, and a truth value for the test of null. Nothing is
said of the column here. -/
def Operator.Takes : Operator → Value → Prop
  | .compare c, v => c.Takes v
  | .atLeast, v => Comparator.ge.Takes v
  | .atMost, v => Comparator.le.Takes v
  | .between, v => ∃ low high, v = .list [low, high] ∧ low.IsSingle ∧ high.IsSingle
  | .oneOf, v => ∃ values, v = .list values ∧ values ≠ [] ∧ ∀ x ∈ values, x.IsSingle
  | .matches, v => ∃ pattern, v = .text pattern
  | .isNull, v => v.IsFlag

/-- A comparison that needs an order is asked with a truth value, which has none. The two operators
for bounds are such comparisons as well. -/
def Operator.OrdersFlag (o : Operator) (v : Value) : Prop :=
  v.IsFlag ∧ ∃ c, o.comparator? = some c ∧ c ≠ .eq ∧ c ≠ .ne

/-! ### Conditions that are made

A value is never written into the text of a condition. It is bound, except for truth values, which
have words of their own in the language of statements. -/

/-- The condition that a comparison makes of a term and a value. Truth values are written out, all
others are bound. -/
inductive Comparator.Makes (c : Comparator) (term : Term) : Value → Condition → Prop
  | bound {v : Value} (plain : ¬v.IsFlag) : Makes c term v (.compare c term (.bound v))
  | flag (b : Bool) : Makes c term (.bool b) (.compare c term (.truth b))

/-- The condition that an operator makes of a term and a value, one constructor for each operator,
so that every condition of a predicate is one of these. -/
inductive Operator.Makes (term : Term) : Operator → Value → Condition → Prop
  | compared {o : Operator} {c : Comparator} {v : Value} {condition : Condition}
    (comparison : o.comparator? = some c) (makes : c.Makes term v condition) :
    Makes term o v condition
  | between (low high : Value) :
    Makes term .between (.list [low, high]) (.between term low high)
  | oneOf (values : List Value) : Makes term .oneOf (.list values) (.oneOf term values)
  | «matches» (pattern : String) : Makes term .matches (.text pattern) (.matches term pattern)
  | isNull : Makes term .isNull (.bool true) (.isNull term)
  | isNotNull : Makes term .isNull (.bool false) (.isNotNull term)

/-- The failure is reported as one of a kind, under a name. -/
def Fault.Reports (kind : QueryError.Kind) (name : String) (fault : Fault) : Prop :=
  ∃ e, fault = .query e ∧ e.report.kind = kind ∧ e.report.field = .text name

namespace Operator

variable {o : Operator} {p : Predicate} {term : Term}

/-- What an operator can make of a predicate and a term. There are three outcomes, and the
hypotheses of the constructors exclude each other, so the shape of the value decides between
them. -/
inductive Outcome (o : Operator) (p : Predicate) (term : Term) : Except Fault Condition → Prop
  | made {condition : Condition} (takes : o.Takes p.value)
    (makes : o.Makes term p.value condition) : Outcome o p term (.ok condition)
  | unordered (orders : o.OrdersFlag p.value) : Outcome o p term (.error .unorderedFlag)
  | unfit {fault : Fault} (unfit : ¬o.Takes p.value) (orderless : ¬o.OrdersFlag p.value)
    (reported : fault.Reports .invalidOperatorValue p.field) : Outcome o p term (.error fault)

/-- No value fits an operator that orders it although it is a truth value. -/
theorem OrdersFlag.not_takes {v : Value} (h : o.OrdersFlag v) : ¬o.Takes v := by
  obtain ⟨flag, c, comparison, notEq, notNe⟩ := h
  have refused : ¬c.Takes v := fun takes => (takes.2 flag).elim notEq notNe
  cases o with
  | compare | atLeast | atMost =>
    obtain rfl := Option.some.inj comparison
    exact refused
  | between | oneOf | «matches» | isNull => nomatch comparison

/-- The outcome of an operator that is a comparison. -/
theorem outcome_comparison {c : Comparator} (comparison : o.comparator? = some c)
    (takes : o.Takes p.value ↔ c.Takes p.value) : o.Outcome p term (p.comparison c term) := by
  by_cases single : p.value.IsSingle
  · rw [Predicate.comparison, if_pos (Value.isScalar_iff.2 single)]
    by_cases flag : p.value.IsFlag
    · obtain ⟨b, hb⟩ := flag
      by_cases needsNone : c = .eq ∨ c = .ne
      · have made : c.withValue term p.value = .ok (.compare c term (.truth b)) := by
          obtain rfl | rfl := needsNone <;> rw [hb] <;> rfl
        rw [made]
        refine .made (takes.2 ⟨single, fun _ => needsNone⟩) (.compared comparison ?_)
        exact hb ▸ .flag b
      · have refused : c.withValue term p.value = .error .unorderedFlag := by
          rw [hb]
          cases c <;> first | rfl | exact absurd (by simp) needsNone
        rw [refused]
        exact .unordered ⟨⟨b, hb⟩, c, comparison, not_or.1 needsNone⟩
    · have made : c.withValue term p.value = .ok (.compare c term (.bound p.value)) := by
        unfold Comparator.withValue
        split
        · exact absurd ⟨_, ‹_›⟩ flag
        · rfl
      rw [made]
      exact .made (takes.2 ⟨single, fun h => absurd h flag⟩) (.compared comparison (.bound flag))
  · rw [Predicate.comparison, if_neg (mt Value.isScalar_iff.1 single)]
    exact .unfit (fun h => single (takes.1 h).1) (fun h => single h.1.isSingle) ⟨_, rfl, rfl, rfl⟩

/-- Only comparisons order truth values, so other operators report each value that does not
fit. -/
theorem Outcome.refused (h : o.comparator? = none) {fault : Fault}
    (reported : fault.Reports .invalidOperatorValue p.field) (unfit : ¬o.Takes p.value) :
    o.Outcome p term (.error fault) := by
  refine .unfit unfit ?_ reported
  rintro ⟨-, c, comparison, -⟩
  rw [h] at comparison
  cases comparison

/-- **An operator makes a condition of the values that fit, and of no others.** -/
theorem outcome (o : Operator) (p : Predicate) (term : Term) :
    o.Outcome p term (o.apply p term) := by
  cases o with
  | compare c => exact outcome_comparison rfl Iff.rfl
  | atLeast => exact outcome_comparison rfl Iff.rfl
  | atMost => exact outcome_comparison rfl Iff.rfl
  | between =>
    simp only [apply]
    split
    · rename_i low high pair
      split
      · rename_i singles
        rw [Bool.and_eq_true, Value.isScalar_iff, Value.isScalar_iff] at singles
        exact .made ⟨low, high, pair, singles⟩ (pair ▸ .between low high)
      · rename_i singles
        rw [Bool.and_eq_true, Value.isScalar_iff, Value.isScalar_iff] at singles
        refine .refused rfl ⟨_, rfl, rfl, rfl⟩ ?_
        rintro ⟨low', high', pair', fits⟩
        rw [pair'] at pair
        obtain ⟨rfl, rfl⟩ : low' = low ∧ high' = high := by simpa using pair
        exact singles fits
    · rename_i noPair
      refine .refused rfl ⟨_, rfl, rfl, rfl⟩ ?_
      rintro ⟨low, high, pair, -⟩
      exact noPair low high pair
  | oneOf =>
    simp only [apply]
    split
    · rename_i values listed
      have fit : (!values.isEmpty && values.all Value.isScalar) = true ↔
          values ≠ [] ∧ ∀ x ∈ values, x.IsSingle := by
        simp [Value.isScalar_iff]
      split
      · rename_i singles
        exact .made ⟨values, listed, fit.1 singles⟩ (listed ▸ .oneOf values)
      · rename_i singles
        refine .refused rfl ⟨_, rfl, rfl, rfl⟩ ?_
        rintro ⟨values', listed', fits⟩
        obtain rfl := Value.list.inj (listed'.symm.trans listed)
        exact singles (fit.2 fits)
    · rename_i noList
      refine .refused rfl ⟨_, rfl, rfl, rfl⟩ ?_
      rintro ⟨values, listed, -⟩
      exact noList values listed
  | «matches» =>
    simp only [apply]
    split
    · rename_i pattern text
      exact .made ⟨pattern, text⟩ (text ▸ .matches pattern)
    · rename_i noText
      refine .refused rfl ⟨_, rfl, rfl, rfl⟩ ?_
      rintro ⟨pattern, text⟩
      exact noText pattern text
  | isNull =>
    simp only [apply]
    split
    · rename_i b flag
      refine .made ⟨b, flag⟩ (flag ▸ ?_)
      cases b
      · exact .isNotNull
      · exact .isNull
    · rename_i noFlag
      refine .refused rfl ⟨_, rfl, rfl, rfl⟩ ?_
      rintro ⟨b, flag⟩
      exact noFlag b flag

end Operator

/-! ### Predicates

With the operator known and the column found, what is left is the outcome of the operator. The two
questions that come before it are asked in that order, and each is only asked if the one before it
was answered. -/

namespace Predicate

variable {table : Table} {family : Family} {p : Predicate}

/-- A predicate is acceptable on a table: its operator is known, its field is offered, and its value
fits. Nothing is said here of the rows that it selects. -/
def Acceptable (table : Table) (family : Family) (p : Predicate) : Prop :=
  ∃ o : Operator, p.operator = Vocabulary.word o ∧ table.Offers family p.field ∧ o.Takes p.value

/-- The condition that a predicate becomes: the one that its operator makes of the column of its
field and of its value. -/
def Becomes (table : Table) (family : Family) (p : Predicate) (condition : Condition) : Prop :=
  ∃ (o : Operator) (column : Column), p.operator = Vocabulary.word o ∧
    Field.onTable table family p.field = .ok column ∧
    o.Makes (.ofColumn table column) p.value condition

/-- Why a predicate is refused, and how that is reported. The reasons exclude each other, since each
of them comes with the failure of its own question and the success of the questions before. -/
inductive RefusedAs (table : Table) (family : Family) (p : Predicate) : Fault → Prop
  | operator {fault : Fault} (unknown : ∀ o : Operator, p.operator ≠ Vocabulary.word o)
    (reported : fault.Reports .unsupportedOperator p.field) : RefusedAs table family p fault
  | field {fault : Fault} {o : Operator} (known : p.operator = Vocabulary.word o)
    (absent : ¬table.Offers family p.field) (reported : fault.NamesUnknownField p.field) :
    RefusedAs table family p fault
  | value {fault : Fault} {o : Operator} (known : p.operator = Vocabulary.word o)
    (offered : table.Offers family p.field) (unfit : ¬o.Takes p.value)
    (orderless : ¬o.OrdersFlag p.value)
    (reported : fault.Reports .invalidOperatorValue p.field) : RefusedAs table family p fault
  | unordered {o : Operator} (known : p.operator = Vocabulary.word o)
    (offered : table.Offers family p.field) (orders : o.OrdersFlag p.value) :
    RefusedAs table family p .unorderedFlag

/-- A predicate that is refused for one of the reasons is not acceptable. -/
theorem RefusedAs.not_acceptable {fault : Fault} (h : p.RefusedAs table family fault) :
    ¬p.Acceptable table family := by
  rintro ⟨o, known, offered, takes⟩
  cases h with
  | operator unknown => exact unknown o known
  | field _ absent => exact absent offered
  | value known' _ unfit =>
    obtain rfl := Vocabulary.word_inj.1 (known'.symm.trans known)
    exact unfit takes
  | unordered known' _ orders =>
    obtain rfl := Vocabulary.word_inj.1 (known'.symm.trans known)
    exact orders.not_takes takes

/-- **A predicate becomes a condition if it is acceptable, and is refused for the first of its
faults otherwise.** The two cases exclude each other, since no predicate that is refused for one of
the reasons is acceptable. -/
theorem compile_cases (table : Table) (family : Family) (p : Predicate) :
    (p.Acceptable table family ∧ ∃ condition, p.compile table family = .ok condition ∧
      p.Becomes table family condition) ∨
    ∃ fault, p.compile table family = .error fault ∧ p.RefusedAs table family fault := by
  cases found : Vocabulary.ofWord? (α := Operator) p.operator with
  | none =>
    have unknown (o : Operator) : p.operator ≠ Vocabulary.word o := by
      rintro word
      rw [word, Vocabulary.ofWord?_word] at found
      cases found
    have refused : p.compile table family =
        .error (.query (.unknownOperator p.operator p.field (Vocabulary.words Operator))) := by
      rw [compile, found]
    exact .inr ⟨_, refused, .operator unknown ⟨_, rfl, rfl, rfl⟩⟩
  | some o =>
    have known := (Vocabulary.word_of_ofWord? found).symm
    cases column : Field.onTable table family p.field with
    | error fault =>
      refine .inr ⟨fault, ?_, .field known ?_ (Field.namesUnknownField_of_onTable column)⟩
      · rw [compile, found]
        dsimp only
        rw [column, Outcome.error_bind]
      · intro offered
        obtain ⟨c, hc⟩ := Field.onTable_ok_iff.2 offered
        cases hc.symm.trans column
    | ok c =>
      have offered : table.Offers family p.field := Field.onTable_ok_iff.1 ⟨c, column⟩
      have compiled : p.compile table family = o.apply p (.ofColumn table c) := by
        rw [compile, found]
        dsimp only
        rw [column, Outcome.ok_bind]
      have outcome := o.outcome p (.ofColumn table c)
      rw [← compiled] at outcome
      generalize p.compile table family = x at outcome
      cases outcome with
      | made takes makes =>
        exact .inl ⟨⟨o, known, offered, takes⟩, _, rfl, o, c, known, column, makes⟩
      | unordered orders => exact .inr ⟨_, rfl, .unordered known offered orders⟩
      | unfit unfit orderless reported =>
        exact .inr ⟨_, rfl, .value known offered unfit orderless reported⟩

/-- What an acceptable predicate becomes. -/
theorem Acceptable.exists_becomes (h : p.Acceptable table family) :
    ∃ condition, p.compile table family = .ok condition ∧ p.Becomes table family condition := by
  obtain ⟨-, made⟩ | ⟨fault, -, refused⟩ := compile_cases table family p
  · exact made
  · exact absurd h refused.not_acceptable

/-- The condition of a predicate is the one that it becomes: compiling gives one condition, so what
is known of that condition is known of every one. -/
theorem becomes_of_compile {condition : Condition} (h : p.compile table family = .ok condition) :
    p.Becomes table family condition := by
  obtain ⟨-, made, compiled, becomes⟩ | ⟨fault, refused, -⟩ := compile_cases table family p
  · obtain rfl := Except.ok.inj (h.symm.trans compiled)
    exact becomes
  · nomatch h.symm.trans refused

theorem exists_refusedAs_of_not_acceptable (h : ¬p.Acceptable table family) :
    ∃ fault, p.compile table family = .error fault ∧ p.RefusedAs table family fault := by
  obtain ⟨accepted, -⟩ | refused := compile_cases table family p
  · exact absurd accepted h
  · exact refused

/-- **Predicates become their conditions, in order, or are refused for the first unacceptable one.**
No predicates become no condition at all. Whether a predicate is acceptable depends on it and on the
table alone, so the predicates before and after it change neither its condition nor the reason why
it is refused. -/
theorem compileAll_cases (table : Table) (family : Family) (predicates : List Predicate) :
    compileAll table family [] = .ok [] ∧
    ((∀ p ∈ predicates, p.Acceptable table family) → ∃ conditions,
      compileAll table family predicates = .ok conditions ∧
        List.Forall₂ (Becomes table family) predicates conditions) ∧
    ∀ before p after, predicates = before ++ p :: after →
      (∀ q ∈ before, q.Acceptable table family) → ¬p.Acceptable table family →
        ∃ fault, compileAll table family predicates = .error fault ∧
          p.RefusedAs table family fault := by
  refine ⟨rfl, fun accepted => ?_, ?_⟩
  · obtain ⟨conditions, compiled⟩ := Outcome.exists_mapM_eq_ok_iff.2 fun p hp =>
      (accepted p hp).exists_becomes.imp fun _ made => made.1
    exact ⟨conditions, compiled,
      (Outcome.mapM_eq_ok_iff.1 compiled).imp fun _ _ => becomes_of_compile⟩
  · rintro before p after rfl accepted unacceptable
    obtain ⟨fault, refused, reason⟩ := exists_refusedAs_of_not_acceptable unacceptable
    refine ⟨fault, Outcome.mapM_eq_error_iff.2 ⟨before, p, after, rfl, fun q hq => ?_, refused⟩,
      reason⟩
    exact (accepted q hq).exists_becomes.imp fun _ made => made.1

/-- The operators. -/
example : Vocabulary.words Operator =
    ["=", "!=", ">", ">=", "<", "<=", "gte", "lte", "between", "in", "ilike", "is_null"] := by
  decide

/-- Houses of a year within some prices. -/
def housesSold : List Predicate :=
  [⟨"year", "=", .int 2020⟩, ⟨"price", "between", .list [.int 100000, .int 200000]⟩,
    ⟨"propertyTypeLabel", "in", .list [.text "UNE MAISON"]⟩]

theorem acceptable_of_mem_housesSold :
    ∀ p ∈ housesSold, p.Acceptable .sales .transactions := by
  simp only [housesSold, List.forall_mem_cons]
  refine ⟨⟨.compare .eq, rfl, Field.onTable_ok_iff.1 ⟨_, rfl⟩, ?_⟩,
    ⟨.between, rfl, Field.onTable_ok_iff.1 ⟨_, rfl⟩, ?_⟩,
    ⟨.oneOf, rfl, Field.onTable_ok_iff.1 ⟨_, rfl⟩, ?_⟩, nofun⟩
  · exact ⟨Value.isScalar_iff.1 rfl, fun _ => .inl rfl⟩
  · exact ⟨_, _, rfl, Value.isScalar_iff.1 rfl, Value.isScalar_iff.1 rfl⟩
  · exact ⟨_, rfl, by simp, by simpa using Value.isScalar_iff.1 rfl⟩

/-- These have all of their conditions. Of a predicate with three faults behind them the operator is
reported, and a later predicate does not matter. -/
theorem compileAll_housesSold :
    (∃ conditions, compileAll .sales .transactions housesSold = .ok conditions ∧
      List.Forall₂ (Becomes .sales .transactions) housesSold conditions) ∧
    ∃ fault, compileAll .sales .transactions
        (housesSold ++ [⟨"colour", "like", .list [.null]⟩, ⟨"year", ">", .bool true⟩]) =
          .error fault ∧ fault.Reports .unsupportedOperator "colour" := by
  have unknown (o : Operator) : "like" ≠ Vocabulary.word o := by
    cases o with
    | compare c => cases c <;> decide
    | _ => decide
  obtain ⟨-, accepted, -⟩ := compileAll_cases .sales .transactions housesSold
  obtain ⟨-, -, refused⟩ := compileAll_cases .sales .transactions
    (housesSold ++ [⟨"colour", "like", .list [.null]⟩, ⟨"year", ">", .bool true⟩])
  refine ⟨accepted acceptable_of_mem_housesSold, ?_⟩
  obtain ⟨fault, failed, reason⟩ := refused _ _ _ rfl acceptable_of_mem_housesSold
    fun ⟨o, word, _⟩ => unknown o word
  refine ⟨fault, failed, ?_⟩
  cases reason with
  | operator _ reported => exact reported
  | field known | value known | unordered known => exact absurd known (unknown _)

end Predicate

end PropertyMarket
