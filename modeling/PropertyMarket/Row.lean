import PropertyMarket.Value.Order

/-!
# Rows and their keys

Rows at hand are records. They are told apart and put in order by the values of some of their
columns.

## Main definitions

* `Record.ofValue`, `Record.require` — the row that a value is, and the value of a column that a
  row has to have
* `RowKey` — the values of key columns; `RowKey.same`, `RowKey.compare`
* `RowKey.rowsOf` — the rows that values are, each of which has a key
* `RowKey.sort` — rows in the order of their keys
* `RowKey.put` — the last row of each key, at the place of the first

## Implementation notes

Keys are compared by the order of values, which not all values have. A sort would therefore depend
on which pairs it happens to compare, and so `RowKey.sort` first asks for an order between every two
keys and only then sorts; afterwards the order is a total one and the sort is a plain merge sort,
which is stable. What belongs to keys is a list of pairs in the order in which the keys were met, so
that the rows of a result come in an order that the input decides.
-/

namespace PropertyMarket

/-- The row that a value is; anything but a record is refused. -/
def Record.ofValue : Value → Except Fault Record
  | .record row => .ok row
  | _ => .error .incompatible

/-- The value of a column that a row has to have. A column that is present and null is present; one
that is missing is a fault that names it. -/
def Record.require (row : Record) (name : String) : Except Fault Value :=
  match row.get? name with
  | some value => .ok value
  | none => .error (.missingKey name)

/-- The values of key columns, in the order of the columns. -/
abbrev RowKey := List Value

namespace RowKey

/-- May the value be part of a key? Collections may not, and null may. -/
def isPart : Value → Bool
  | .list _ | .record _ => false
  | _ => true

/-- The key of a row; the first column that the row lacks is the one that is reported. -/
def ofRow (columns : List String) (row : Record) : Except Fault RowKey :=
  columns.mapM row.require

/-- A key whose values all may be part of one. Checking is a step of its own, since it comes after
all the columns have been found. -/
def check (key : RowKey) : Except Fault RowKey :=
  if key.all isPart then .ok key else .error .incompatible

/-- The rows that values are, each of which has a key. They are checked one after the other, so the
first value that is no row, or has no key, decides the fault. -/
def rowsOf (columns : List String) (values : List Value) : Except Fault (List Record) :=
  values.mapM fun value => do
    let row ← Record.ofValue value
    let _ ← check (← ofRow columns row)
    return row

/-- The same key: value by value, by what the values denote. An integer and a binary64 number of its
value make the same key. -/
def same (a b : RowKey) : Bool := Value.sameItems a b

/-- The order of keys is that of the first values that differ; those may have none. A key of which
another one is the beginning comes after it. -/
def compare : RowKey → RowKey → Except Fault Ordering
  | [], [] => .ok .eq
  | [], _ => .ok .lt
  | _, [] => .ok .gt
  | a :: as, b :: bs =>
    if a.same b then compare as bs
    else (Value.isBefore false a b).map fun less => if less then .lt else .gt

/-- Is the first key not after the second? Keys without an order count as not after each other,
which the check before a sort excludes. -/
def le (a b : RowKey) : Bool :=
  match compare a b with
  | .ok .gt => false
  | _ => true

/-- Refuses keys that do not all have an order with each other. Every two of them are compared, a
quadratic test whose answer does not depend on how the sort goes about it. -/
def checkOrder : List RowKey → Except Fault Unit
  | [] => .ok ()
  | k :: rest => do
    rest.forM fun other => discard (compare k other)
    checkOrder rest

/-- What belongs to keys, in the order of the keys; entries of equal keys keep their order. -/
def sort {α : Type} (entries : List (RowKey × α)) : Except Fault (List (RowKey × α)) := do
  checkOrder (entries.map (·.1))
  return entries.mergeSort fun a b => le a.1 b.1

/-- What belongs to a key, if anything does; the first entry of several. -/
def find? {α : Type} (key : RowKey) (entries : List (RowKey × α)) : Option α :=
  (entries.find? fun entry => same entry.1 key).map (·.2)

/-- Changes what belongs to a key; a new key comes last. A known key keeps both its place and the
form in which it was first met. -/
def update {α : Type} (key : RowKey) (change : Option α → α) :
    List (RowKey × α) → List (RowKey × α)
  | [] => [(key, change none)]
  | (k, a) :: rest =>
    if same k key then (k, change (some a)) :: rest else (k, a) :: update key change rest

end RowKey

end PropertyMarket
