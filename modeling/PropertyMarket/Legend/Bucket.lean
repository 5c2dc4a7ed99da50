import PropertyMarket.Number.Rounding
import PropertyMarket.Statistics
import PropertyMarket.Value.Order

/-!
# Buckets

Consecutive boundaries delimit buckets. A bucket holds its lower bound and everything below its
upper bound; only the last one holds its upper bound too, so that the greatest value has a place
and no value has two.

## Main definitions

* `Measure` — a kind of number that legends are made of; its instances `Number` and `Rat`
* `Range`, `Range.ofBoundaries` — a bucket's bounds, and those of consecutive boundaries
* `Range.holds` — does a bucket hold a value?

## Implementation notes

A bucket without a lower bound, or without an upper one, is not restricted on that side; so a draft
without values has one bucket that holds everything. Whether a bucket is the last one is a field of
it, and not seen from its position, so that a bucket can be tested and written by itself. Boundaries
may be equal: then the bucket between them is empty, or holds that one value if it is the last.
-/

namespace PropertyMarket

/-! ### What is measured

The order of a `Measure` is a Boolean test without laws, like the operations of `Scalar`. The laws
are stated where they are needed, for an order in which they hold. -/

/-- A kind of number that legends are made of: how stored numbers become one, an order, and
quantiles, which may fail. -/
class Measure (β : Type) where
  /-- The measured number of a stored one. -/
  ofNumber : Number → Except Fault β
  /-- Strictly less. -/
  lt : β → β → Bool
  /-- Less or equal. -/
  le : β → β → Bool
  /-- The quantile at a cut. -/
  quantile : List β → Cut → Except Fault (Option β)

/-- Stored numbers keep their kind, but decimals are approximated; quantiles are computed in
binary64. -/
instance : Measure Number where
  ofNumber
    | .decimal d => .ok (.double d.toDouble)
    | x => .ok x
  lt := Number.lt
  le := Number.le
  quantile values cut := do
    let xs ← (values.mapM Number.toDouble).mapError Fault.ofArithmetic
    return (quantile xs cut.toDouble).map Number.double

/-- Rationals are exact. -/
instance : Measure Rat where
  ofNumber x := x.toRat?.elim (.error .incompatible) .ok
  lt x y := decide (x < y)
  le x y := decide (x ≤ y)
  quantile values cut := .ok (quantile values (mkRat cut.part cut.whole))

namespace Measure

variable {β : Type} [Measure β]

/-- The least value, of equal ones the first; there is none of no values. -/
def least : List β → Option β
  | [] => none
  | x :: xs => some (xs.foldl (fun kept next => if lt next kept then next else kept) x)

/-- The greatest value, of equal ones the first. -/
def greatest : List β → Option β
  | [] => none
  | x :: xs => some (xs.foldl (fun kept next => if lt kept next then next else kept) x)

end Measure

/-! ### Bounds

Consecutive boundaries give one bucket fewer than there are boundaries, each sharing a bound with
the next. -/

/-- The bounds of a bucket; a missing one does not restrict it. The lower bound always belongs to
it. -/
structure Range (β : Type) where
  lower : Option β
  upper : Option β
  /-- Does the bucket hold its upper bound? -/
  isLast : Bool
  deriving DecidableEq, Repr

namespace Range

/-- The buckets between consecutive boundaries, of which only the last is closed above. -/
def ofBoundaries {β : Type} : List (Option β) → List (Range β)
  | [] | [_] => []
  | [a, b] => [⟨a, b, true⟩]
  | a :: b :: c :: rest => ⟨a, b, false⟩ :: ofBoundaries (b :: c :: rest)

/-- Does the bucket hold the value? A NaN is neither below a lower bound nor at an upper one, so no
bucket with an upper bound holds it. -/
def holds {β : Type} [Measure β] (r : Range β) (value : β) : Bool :=
  (r.lower.all fun bound => !Measure.lt value bound) &&
    r.upper.all fun bound => if r.isLast then Measure.le value bound else Measure.lt value bound

/-- Does the bucket hold the value? A bound and a value of kinds without an order cannot be
compared. The lower bound is looked at first, and a value below it needs no upper one. -/
def holdsValue (r : Range Value) (value : Value) : Except Fault Bool := do
  let below ← r.lower.elim (.ok false) (value.isBefore false)
  if below then return false
  r.upper.elim (.ok true) (value.isBefore r.isLast)

end Range

/-- A value without the exactness of decimals, which are approximated in binary64. All other kinds
are kept as they are, integers of any size among them. -/
def Value.approximated : Value → Value
  | .decimal d => .double d.toDouble
  | v => v

/-- A bound that is a value; null is none. -/
def Value.bound? : Value → Option Value
  | .null => none
  | v => some v

end PropertyMarket
