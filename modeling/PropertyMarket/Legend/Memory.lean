import PropertyMarket.Legend
import PropertyMarket.Legend.Scope

/-!
# Legends of rows at hand

The statistics and counts of a legend, computed from rows that are already loaded.

## Main definitions

* `Legend.Scope.holds` — is a row within a scope?
* `Legend.measured?` — the measured values of the rows within a scope
* `Legend.ofValues`, `Legend.ofRows` — values, and rows, as the provider of a legend
* `Legend.ofRowValues` — the same of values that should be rows

## Implementation notes

Rows at hand have no outlines, so a scope with a bounding box is refused.

The rows are read anew for the draft and for each count, as the definitions have it; the values are
the same each time, so a provider of rows is the provider of its values once these are known. That
is what `Legend.ofMeasured` is for: it separates what can fail in reading from what is computed.
-/

namespace PropertyMarket.Legend

/-! ### Reading values

A row is within the scope if its year, month and code are those of the scope, where it restricts
them; then its value in the measured column counts, unless it is null. Values that are no numbers
still have a say: they decide which fault is reported. -/

/-- Is the row within the scope? A box is not looked at, since no legend with one gets so far. -/
def Scope.holds (s : Scope) (row : Record) : Bool :=
  (row.getD "year").same s.year && (s.month?.all fun month => (row.getD "month").same month) &&
    s.code?.all fun code => (row.getD "insee_code").same code

/-- The values of a column in the rows within a scope, without null, in the order of the rows. -/
def valuesWithin (s : Scope) (column : String) (rows : List Record) : List Value :=
  ((rows.filter s.holds).map fun row => row.getD column).filter fun v => !v.isNull

/-- Values as numbers. Values of another kind are none, even if they have an order and denote
numbers: they can be put in order, but not into buckets. What fails on the way there is the
fault. -/
def numbers? (values : List Value) : Except Fault (Option (List Number)) :=
  match values.mapM Value.number? with
  | some numbers => .ok (some numbers)
  | none => do
    let others := values.map Value.approximated
    let _ ← Value.extreme false others
    let _ ← Value.extreme true others
    let grid ← Grid.ofItems others
    let _ : List Double ← grid.numbers
    return none

/-- The measured values of a field in the rows within a scope, if they can be put into buckets. The
box is looked at first, then the relation and the field, then the values. -/
def measured? (β : Type) [Measure β] (s : Scope) (field : Value) (rows : List Record) :
    Except Fault (Option (List β)) :=
  if s.box.isSome then .error (.query .boxNeedsGeometry)
  else do
    let c ← column (← s.relation) field
    match ← numbers? (valuesWithin s c.name rows) with
    | some numbers => return some (← numbers.mapM Measure.ofNumber)
    | none => return none

/-! ### Sources

Values are a source by counting, and rows by the values that are read off them. A source of rows
fails as a whole if reading them does. -/

variable {β : Type} [Measure β]

/-- The statistics of values, and their breaks at some cuts. A break that is missing is left out. -/
def draftOf (values : List β) (cuts : List Cut) : Except Fault (Draft β Nat) := do
  let median ← Measure.quantile values Cut.middle
  let breaks ← cuts.mapM (Measure.quantile values)
  return {
    stats := ⟨Measure.least values, Measure.greatest values, median, values.length⟩
    breaks := breaks.filter Option.isSome }

/-- Values as the provider of a legend. A count never fails and does not depend on its position. -/
def ofValues (values : List β) : Provider β Nat where
  draft := draftOf values
  count _ range := .ok (values.countP range.holds)

/-- Values that cannot be put into buckets, as the provider of a legend: no bucket is counted, and
the draft is one without values. -/
def uncountable : Provider β Nat where
  draft _ := .ok ⟨⟨none, none, none, 0⟩, []⟩
  count _ _ := .error .incompatible

/-- Measured values as the provider of a legend. -/
def ofMeasured (values? : Option (List β)) : Provider β Nat :=
  values?.elim uncountable ofValues

/-- Rows as the provider of a legend, which is that of the values that they measure. -/
def ofRows (β : Type) [Measure β] (s : Scope) (field : Value) (rows : List Record) :
    Provider β Nat where
  draft cuts := do (ofMeasured (← measured? β s field rows)).draft cuts
  count position range := do (ofMeasured (← measured? β s field rows)).count position range

/-- The row that a value is, by its parts. -/
def partsOf : Value → Except Fault Record
  | .record row => .ok row
  | _ => .error .notArguments

/-- Values that should be rows as the provider of a legend. They are looked at once the scope and
the field are known to be right. -/
def ofRowValues (β : Type) [Measure β] (s : Scope) (field : Value) (values : List Value) :
    Provider β Nat where
  draft cuts := do
    let _ ← measured? β s field []
    (ofRows β s field (← values.mapM partsOf)).draft cuts
  count position range := do
    (ofRows β s field (← values.mapM partsOf)).count position range

end PropertyMarket.Legend
