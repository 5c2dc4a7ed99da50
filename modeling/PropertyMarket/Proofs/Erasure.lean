import PropertyMarket.Proofs.Compiled
import PropertyMarket.Proofs.Pieces

/-!
# Predicates without their data

A predicate is compiled by looking at its field, at its operator, and at the shape of its value:
whether it is null, a truth value, a single value, or a list of so many single values. Its data,
the numbers and the texts, are only handed on.

## Main definitions

* `Value.erase`, `Predicate.erase` — a value, a predicate, without its data

## Main results

* `Predicate.compileAll_agree` — predicates that are the same without their data fail in the same
  class, or become conditions of the same form
* `Predicate.values_compileAll` — the conditions of predicates bind their values in order, each
  once, apart from truth values, some of which are written out

## Implementation notes

What differs only in data is what is equal once the data are erased. So a statement about two runs
is one about a run and the run without data, used twice.

As erasing a second time changes nothing, two runs that only differ in data both agree with the run
without data, and agreement is transitive. No lemma here has to speak of two different values in one
condition.
-/

namespace PropertyMarket

/-! ### Erasing data

What is kept of a value is what decides how it is treated, and not what it says. An empty text stays
empty, as it can stand for nothing being given; a truth value stays, because it may be written out;
and a list keeps its length. -/

/-- Some text in place of any text, but none in place of none. -/
def eraseText (s : String) : String := if s = "" then "" else "_"

theorem eraseText_eraseText (s : String) : eraseText (eraseText s) = eraseText s := by
  by_cases h : s = ""
  · simp [eraseText, h]
  · simp [eraseText, h]

namespace Value

mutual

/-- A value with one number in place of all numbers, and one text in place of all texts that are not
empty. Truth values, the lengths of lists and the names of records stay. -/
def erase : Value → Value
  | .null => .null
  | .bool b => .bool b
  | .int _ | .double _ | .decimal _ => .int 0
  | .text s => .text (eraseText s)
  | .list items => .list (eraseItems items)
  | .record fields => .record (eraseFields fields)

/-- The items of a list without their data. -/
def eraseItems : List Value → List Value
  | [] => []
  | v :: rest => v.erase :: eraseItems rest

/-- The fields of a record without their data. -/
def eraseFields : Record → Record
  | [] => []
  | (name, v) :: rest => (name, v.erase) :: eraseFields rest

end

/-- Is it a truth value? -/
def isBool : Value → Bool
  | .bool _ => true
  | _ => false

theorem eraseItems_eq_map (items : List Value) : eraseItems items = items.map erase := by
  induction items with
  | nil => rfl
  | cons v rest ih => rw [eraseItems, ih, List.map_cons]

mutual

/-- Without data there is nothing more to erase, in any value: lists and records are gone through
with it. -/
theorem erase_erase : ∀ v : Value, v.erase.erase = v.erase
  | .null | .bool _ | .int _ | .double _ | .decimal _ => rfl
  | .text s => congrArg Value.text (eraseText_eraseText s)
  | .list items => congrArg Value.list (eraseItems_eraseItems items)
  | .record fields => congrArg Value.record (eraseFields_eraseFields fields)

theorem eraseItems_eraseItems : ∀ items, eraseItems (eraseItems items) = eraseItems items
  | [] => rfl
  | v :: rest => by rw [eraseItems, eraseItems, erase_erase v, eraseItems_eraseItems rest]

theorem eraseFields_eraseFields : ∀ fields, eraseFields (eraseFields fields) = eraseFields fields
  | [] => rfl
  | (name, v) :: rest => by
    rw [eraseFields, eraseFields, erase_erase v, eraseFields_eraseFields rest]

end

@[simp] theorem isScalar_erase (v : Value) : v.erase.isScalar = v.isScalar := by
  cases v <;> rfl

@[simp] theorem isNull_erase (v : Value) : v.erase.isNull = v.isNull := by
  cases v <;> rfl

theorem all_isScalar_erase (items : List Value) :
    (items.map erase).all isScalar = items.all isScalar := by
  rw [List.all_map]
  exact congrArg _ (funext isScalar_erase)

end Value

/-! ### Conditions

The form of a condition is its text with a mark in place of each bound value. A value that is bound
leaves no other trace in it, and a list of values leaves as many marks as it has items. -/

namespace Condition

/-- Two conditions of the same form. -/
def SameForm (c d : Condition) : Prop := c.form = d.form

theorem SameForm.refl (c : Condition) : c.SameForm c := rfl

theorem SameForm.symm {c d : Condition} (h : c.SameForm d) : d.SameForm c := Eq.symm h

theorem SameForm.trans {c d e : Condition} (hcd : c.SameForm d) (hde : d.SameForm e) :
    c.SameForm e := Eq.trans hcd hde

/-- What is written after the same pieces has the same form with them. -/
theorem form_append (ps : List Piece) {qs rs : List Piece}
    (h : qs.map Piece.erase = rs.map Piece.erase) :
    (ps ++ qs).map Piece.erase = (ps ++ rs).map Piece.erase := by
  rw [List.map_append, List.map_append, h]

theorem form_compare (c : Comparator) (term : Term) (v w : Value) :
    (compare c term (.bound v)).form = (compare c term (.bound w)).form :=
  form_append term.pieces rfl

theorem form_between (term : Term) (low high low' high' : Value) :
    (between term low high).form = (between term low' high').form :=
  form_append term.pieces rfl

theorem form_matches (term : Term) (pattern pattern' : String) :
    («matches» term pattern).form = («matches» term pattern').form :=
  form_append term.pieces rfl

/-- The form of a membership shows how many values there are. -/
theorem form_oneOf (term : Term) (values : List Value) :
    (oneOf term values).form = (oneOf term (values.map Value.erase)).form := by
  refine form_append term.pieces ?_
  simp [Piece.enclosed, Piece.map_erase_separated, Function.comp_def, Piece.erase]

end Condition

open Outcome (Agree)

/-- A comparison with a value only depends on the value if it is a truth value. Any other value is
bound, and one bound value looks like the next. -/
theorem Comparator.withValue_erase (c : Comparator) (term : Term) (v : Value) :
    Agree Condition.SameForm (c.withValue term v) (c.withValue term v.erase) := by
  cases v with
  | bool b => exact Agree.refl Condition.SameForm.refl _
  | _ => exact Condition.form_compare c term _ _

namespace Predicate

/-- A predicate without its data: the field and the operator are kept, and the value only as far as
its shape goes. -/
def erase (p : Predicate) : Predicate := { p with value := p.value.erase }

theorem map_erase_erase (ps : List Predicate) : (ps.map erase).map erase = ps.map erase := by
  rw [List.map_map]
  exact List.map_congr_left fun p _ =>
    congrArg (Predicate.mk p.field p.operator) p.value.erase_erase

/-- Two refusals of the same kind. -/
theorem agree_query {R : Condition → Condition → Prop} {e e' : QueryError}
    (h : e.report.kind = e'.report.kind) :
    Agree R (.error (.query e)) (.error (.query e')) := Fault.SameClass.query h

theorem comparison_erase (p : Predicate) (c : Comparator) (term : Term) :
    Agree Condition.SameForm (p.comparison c term) (p.erase.comparison c term) := by
  have scalar : p.erase.value.isScalar = p.value.isScalar := p.value.isScalar_erase
  rw [comparison, comparison, scalar]
  split
  · exact c.withValue_erase term p.value
  · exact agree_query rfl

theorem between_erase (p : Predicate) (term : Term) :
    Agree Condition.SameForm (Operator.between.apply p term)
      (Operator.between.apply p.erase term) := by
  obtain ⟨field, operator, value⟩ := p
  cases value with
  | list items =>
    simp only [Operator.apply, erase, Value.erase, Value.eraseItems_eq_map]
    obtain _ | ⟨low, _ | ⟨high, _ | ⟨more, rest⟩⟩⟩ := items
    · exact agree_query rfl
    · exact agree_query rfl
    · simp only [List.map_cons, List.map_nil, Value.isScalar_erase]
      split
      · exact Condition.form_between term low high low.erase high.erase
      · exact agree_query rfl
    · exact agree_query rfl
  | _ => exact agree_query rfl

theorem oneOf_erase (p : Predicate) (term : Term) :
    Agree Condition.SameForm (Operator.oneOf.apply p term)
      (Operator.oneOf.apply p.erase term) := by
  obtain ⟨field, operator, value⟩ := p
  cases value with
  | list items =>
    simp only [Operator.apply, erase, Value.erase, Value.eraseItems_eq_map, List.isEmpty_map,
      Value.all_isScalar_erase]
    split
    · exact Condition.form_oneOf term items
    · exact agree_query rfl
  | _ => exact agree_query rfl

/-- The condition of an operator does not depend on the data: with and without them it is of the
same form, or both are refused alike. -/
theorem apply_erase (o : Operator) (p : Predicate) (term : Term) :
    Agree Condition.SameForm (o.apply p term) (o.apply p.erase term) := by
  cases o with
  | compare c => exact p.comparison_erase c term
  | atLeast => exact p.comparison_erase .ge term
  | atMost => exact p.comparison_erase .le term
  | between => exact p.between_erase term
  | oneOf => exact p.oneOf_erase term
  | «matches» =>
    obtain ⟨field, operator, value⟩ := p
    cases value with
    | text s => exact Condition.form_matches term s (eraseText s)
    | _ => exact agree_query rfl
  | isNull =>
    obtain ⟨field, operator, value⟩ := p
    cases value with
    | bool b => exact Agree.refl Condition.SameForm.refl _
    | _ => exact agree_query rfl

theorem compile_erase (table : Table) (family : Family) (p : Predicate) :
    Agree Condition.SameForm (p.compile table family) (p.erase.compile table family) := by
  have operator : p.erase.operator = p.operator := rfl
  have field : p.erase.field = p.field := rfl
  rw [compile, compile, operator, field]
  cases Vocabulary.ofWord? (α := Operator) p.operator with
  | none => exact agree_query rfl
  | some o =>
    refine Agree.bind_same fun column => ?_
    exact apply_erase o p (.ofColumn table column)

/-- Predicates that are the same without their data fail in the same class, or become conditions
of the same form. -/
theorem compile_agree {table : Table} {family : Family} {p q : Predicate}
    (h : p.erase = q.erase) :
    Agree Condition.SameForm (p.compile table family) (q.compile table family) := by
  have hp := compile_erase table family p
  have hq := (compile_erase table family q).symm (S := Condition.SameForm) fun _ _ => .symm
  rw [← h] at hq
  exact hp.trans (fun _ _ _ => .trans) hq

theorem compileAll_agree {table : Table} {family : Family} {ps qs : List Predicate}
    (h : ps.map erase = qs.map erase) :
    Agree (List.Forall₂ Condition.SameForm) (compileAll table family ps)
      (compileAll table family qs) := by
  have h : List.Forall₂ (fun p q => p.erase = q.erase) ps qs := by
    rwa [← List.forall₂_eq_eq_eq, List.forall₂_map_left_iff, List.forall₂_map_right_iff] at h
  exact Agree.mapM (fun _ _ same => compile_agree same) h

/-! ### The values that conditions bind

The form of a condition says how many values are bound, and here it is said which. They are the
operands of the predicate, in their order. Truth values are left out on both sides, since some
operators write them out and others bind them. -/

/-- A condition binds the values of its predicate in order, each once, apart from truth values. The
column is asked to bind none, as is the case for any column. -/
theorem Asks.values_eq {p : Predicate} {term : Term} {c : Condition} (h : p.Asks term c)
    (plain : Piece.values term.pieces = []) :
    (Piece.values c.pieces).filter (fun v => !v.isBool) =
      p.operands.filter fun v => !v.isBool := by
  cases h with
  | compared comparator single => simp [Condition.pieces, Term.pieces, plain, single]
  | flagged comparator flag =>
    simp [Condition.pieces, Term.pieces, plain, operands, flag, Value.isBool]
  | between pair => simp [Condition.pieces, plain, operands, pair]
  | oneOf items =>
    simp [Condition.pieces, plain, operands, items, Piece.values_separated, List.flatMap_map]
  | «matches» text => simp [Condition.pieces, plain, operands, text]
  | isNull flag => simp [Condition.pieces, plain, operands, flag, Value.isBool]
  | isNotNull flag => simp [Condition.pieces, plain, operands, flag, Value.isBool]

theorem values_compile {table : Table} {family : Family} {p : Predicate} {c : Condition}
    (h : p.compile table family = .ok c) :
    (Piece.values c.pieces).filter (fun v => !v.isBool) =
      p.operands.filter fun v => !v.isBool := by
  obtain ⟨o, c, -, -, happly⟩ := compile_eq_ok h
  exact (Operator.asks_of_apply happly).values_eq rfl

/-- The conditions of predicates bind their values in order, each once, apart from truth values. -/
theorem values_compileAll {table : Table} {family : Family} {predicates : List Predicate}
    {conditions : List Condition} (h : compileAll table family predicates = .ok conditions) :
    (conditions.flatMap fun c => Piece.values c.pieces).filter (fun v => !v.isBool) =
      (predicates.flatMap operands).filter fun v => !v.isBool := by
  have each := Outcome.mapM_eq_ok_iff.1 h
  clear h
  induction each with
  | nil => rfl
  | cons hp _ ih =>
    rw [List.flatMap_cons, List.flatMap_cons, List.filter_append, List.filter_append,
      values_compile hp, ih]

end Predicate

end PropertyMarket
