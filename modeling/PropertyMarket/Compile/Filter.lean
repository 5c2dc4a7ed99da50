import PropertyMarket.Field
import PropertyMarket.Request.Fragment
import PropertyMarket.Statement

/-!
# Filters

A predicate of a request becomes a condition of a statement: its operator is one of twelve, its
field is looked up on the table, and its value is bound.

## Main definitions

* `Operator` — the operators of predicates
* `Operator.apply` — the condition of an operator on a column, if the value fits
* `Predicate.compile`, `Predicate.compileAll` — the conditions of predicates

## Implementation notes

Of several faults of one predicate an unknown operator is reported first, then the field, then
the value; of several predicates the first refused one is reported.

An operator knows which values it takes and what it makes of them; where the column comes from is
none of its business. So the compilation of a predicate is one look-up and one application, and what
holds of all operators is proved of `Operator.apply`, by cases. Values are bound as they are given
and never converted: whether a column can be compared with them is up to the store.
-/

namespace PropertyMarket

/-- The operators of predicates. The six signs of comparison, two words for two of them, and four
operators that take something else than a single value. -/
inductive Operator where
  | compare (comparator : Comparator)
  | atLeast
  | atMost
  | between
  | oneOf
  | matches
  | isNull
  deriving DecidableEq, Repr

instance : Vocabulary Operator where
  title := "Operator"
  members := [.compare .eq, .compare .ne, .compare .gt, .compare .ge, .compare .lt, .compare .le,
    .atLeast, .atMost, .between, .oneOf, .matches, .isNull]
  word
    | .compare .eq => "="
    | .compare .ne => "!="
    | .compare .gt => ">"
    | .compare .ge => ">="
    | .compare .lt => "<"
    | .compare .le => "<="
    | .atLeast => "gte"
    | .atMost => "lte"
    | .between => "between"
    | .oneOf => "in"
    | .matches => "ilike"
    | .isNull => "is_null"
  find?_word a := by
    cases a with
    | compare c => cases c <;> decide
    | _ => decide

namespace Comparator

/-- Does the comparison need an order? Equality and its opposite do not. -/
def isOrdering : Comparator → Bool
  | .eq | .ne => false
  | _ => true

/-- The comparison of a term with a single value. A truth value is written out, and has no order;
any other value is bound. -/
def withValue (c : Comparator) (term : Term) : Value → Except Fault Condition
  | .bool b => if c.isOrdering then .error .unorderedFlag else .ok (.compare c term (.truth b))
  | value => .ok (.compare c term (.bound value))

end Comparator

/-- The comparison of a predicate, which needs a single value. The fault names the operator as it
was written. -/
def Predicate.comparison (p : Predicate) (c : Comparator) (term : Term) : Except Fault Condition :=
  if p.value.isScalar then c.withValue term p.value
  else .error (.query (.needsScalar p.operator p.field p.value))

/-- The condition of an operator on a column, if the value of the predicate fits. Nothing but the
value is looked at, since the operator and the column are already known to be right. -/
def Operator.apply (operator : Operator) (p : Predicate) (term : Term) : Except Fault Condition :=
  match operator with
  | .compare c => p.comparison c term
  | .atLeast => p.comparison .ge term
  | .atMost => p.comparison .le term
  | .between =>
    match p.value with
    | .list [low, high] =>
      if low.isScalar && high.isScalar then .ok (.between term low high)
      else .error (.query (.needsPair p.field p.value))
    | _ => .error (.query (.needsPair p.field p.value))
  | .oneOf =>
    match p.value with
    | .list values =>
      if !values.isEmpty && values.all Value.isScalar then .ok (.oneOf term values)
      else .error (.query (.needsItems p.field p.value))
    | _ => .error (.query (.needsItems p.field p.value))
  | .matches =>
    match p.value with
    | .text pattern => .ok (.matches term pattern)
    | _ => .error (.query (.needsPattern p.field))
  | .isNull =>
    match p.value with
    | .bool b => .ok (if b then .isNull term else .isNotNull term)
    | _ => .error (.query (.needsFlag p.field))

namespace Predicate

/-- The condition of a predicate on a table: the operator, then the field, then the value, and the
first of them that is wrong is the fault. -/
def compile (table : Table) (family : Family) (p : Predicate) : Except Fault Condition :=
  match Vocabulary.ofWord? (α := Operator) p.operator with
  | none => .error (.query (.unknownOperator p.operator p.field (Vocabulary.words Operator)))
  | some operator => do
    let column ← Field.onTable table family p.field
    operator.apply p (.ofColumn table column)

/-- The conditions of predicates, in order. A refused one refuses them all. -/
def compileAll (table : Table) (family : Family) (predicates : List Predicate) :
    Except Fault (List Condition) :=
  predicates.mapM (compile table family)

end Predicate

/-- Equality with any value; null is equal to null alone. Comparing with null would hold of no
row. -/
def Condition.equals (term : Term) : Value → Condition
  | .null => .isNull term
  | .bool b => .compare .eq term (.truth b)
  | value => .compare .eq term (.bound value)

end PropertyMarket
