import PropertyMarket.Legend
import PropertyMarket.Legend.Statement
import PropertyMarket.Row
import PropertyMarket.Store

/-!
# Legends computed by the store

The statistics and counts of a legend, as a store answers the statements for them.

## Main definitions

* `Legend.ofReplies` — the replies of a store as the provider of a legend
* `Legend.sent` — the statements that are sent for a legend

## Implementation notes

The store's first reply is that to the statement for the statistics; the replies to the counts
follow in the order of the buckets. No count is held back because another one fails.

As a provider the replies are a list by position, since a count is told apart from the others by its
bucket only. What has been sent is computed beside the legend, from the same statements: all counts
are asked for as soon as the draft is there, and none before it.
-/

namespace PropertyMarket.Legend

/-- What is asked of the store. -/
def storeRequest : String := "Legend query"

/-- The row that a store gives in reply to the statement at a position. A reply that is missing is a
row without columns. -/
def rowAt (replies : List (Reply Record)) (position : Nat) : Except Fault Record :=
  (replies[position]?.getD (.ok [])).require storeRequest []

/-- A stored bound: decimals are approximated, and null is none. Other values are kept as the store
gives them. -/
def storedBound (value : Value) : Option Value := value.approximated.bound?

/-- A stored count; there may be none, and then it is zero. -/
def storedCount (value : Value) : Value := if value.truthy then value else .int 0

/-- The statistics and the breaks of a stored row. All columns have to be there, and a break that is
null is left out. -/
def draftOfRow (cuts : List Cut) (row : Record) : Except Fault (Draft Value Value) := do
  let least ← row.require "min"
  let greatest ← row.require "max"
  let median ← row.require "median"
  let count ← row.require "count"
  let breaks ← (List.range cuts.length).mapM fun i => row.require (breakLabel i)
  return {
    stats := ⟨storedBound least, storedBound greatest, storedBound median, storedCount count⟩
    breaks := (breaks.map storedBound).filter Option.isSome }

/-- The statement for the statistics of a scope, with a break at each cut, which is bound as a
binary64 number. -/
def draftStatement (s : Scope) (field : Value) (cuts : List Cut) : Except Fault Statement :=
  statsStatement s field (cuts.map fun c => .double c.toDouble)

/-- The replies of a store as the provider of a legend. A statement that cannot be built is a fault
before its reply is looked at. -/
def ofReplies (s : Scope) (field : Value) (replies : List (Reply Record)) :
    Provider Value Value where
  draft cuts := do
    let _ ← draftStatement s field cuts
    draftOfRow cuts (← rowAt replies 0)
  count position range := do
    let _ ← countStatement s field range
    let row ← rowAt replies (position + 1)
    return storedCount (← row.require "count")

/-- The statements that are sent to the store for a legend: nothing if the request is refused, the
statement for the statistics, and once it has been answered one for each bucket that has a
statement. -/
def sent (s : Scope) (field parts : Value) (replies : List (Reply Record)) : List Statement :=
  match bucketCount parts with
  | .error _ => []
  | .ok n =>
    let cuts := Cut.between n
    match draftStatement s field cuts, (ofReplies s field replies).draft cuts with
    | .ok statement, .ok draft =>
      statement :: draft.ranges.filterMap fun range => (countStatement s field range).toOption
    | .ok statement, .error _ => [statement]
    | .error _, _ => []

end PropertyMarket.Legend
