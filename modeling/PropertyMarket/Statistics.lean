import PropertyMarket.Statistics.Grid

/-!
# Statistics

Quantiles, slopes and yearly changes, as the store computes them, for rows that are at hand.
Quantiles and slopes are defined once, for any kind of number with the four operations and an
order: binary64 numbers are what is computed with, rationals are what is meant.

## Main definitions

* `Scalar` — a kind of number; its instances `Double` and `Rat`
* `quantile` — linear interpolation between order statistics
* `leastSquaresSlope` — the slope of the line of best fit
* `percentile`, `slopeOfPoints` — the same of values, which may be nested in lists
* `difference`, `percentChange` — what changes from one year to the next

## Implementation notes

Between two neighbours the interpolation starts from the nearer one, so that both ends are hit
exactly. At the last position both neighbours are the greatest value; a difference of infinities
is not a number there, as everywhere.
-/

namespace PropertyMarket

/-! ### Kinds of numbers

The class lists what the statistics need of a kind of number, and no laws: binary64 numbers satisfy
few of them. So everything is defined for both kinds at once, laws are proved for rationals, and
what holds of binary64 numbers is said by comparison with them. -/

/-- A kind of number that statistics are computed with: the four operations, an order, the passage
from integers and from stored numbers, and two kinds of rounding. -/
class Scalar (α : Type) extends Add α, Sub α, Mul α, Div α where
  /-- The number of an integer. -/
  ofInt : Int → α
  /-- The number that a stored number stands for. -/
  ofNumber : Number → Except Number.Failure α
  /-- Less or equal. -/
  le : α → α → Bool
  /-- Is it unordered, even with itself? -/
  isUnordered : α → Bool
  /-- The largest integer that is not above. -/
  floor : α → Int
  /-- Rounds to decimal places, a half to the even neighbour. -/
  roundPlaces : Nat → α → α

instance : Scalar Double where
  ofInt := Double.ofInt
  ofNumber := Number.toDouble
  le := Double.le
  isUnordered := Double.isNaN
  floor x := x.floor?.getD 0
  roundPlaces := Double.roundPlaces

/-- A rational rounded to decimal places, a half to the even neighbour. The sign is put back after
the rounding. -/
def roundRat (places : Nat) (x : Rat) : Rat :=
  let n := roundQuotient (x.num.natAbs * Nat.pow 10 places) x.den
  mkRat (if x.num < 0 then -(n : Int) else n) (Nat.pow 10 places)

instance : Scalar Rat where
  ofInt n := n
  ofNumber x := x.toRat?.elim (.error .incompatible) .ok
  le x y := decide (x ≤ y)
  isUnordered _ := false
  floor x := x.floor
  roundPlaces := roundRat

namespace Scalar

variable {α : Type} [Scalar α]

/-- Is the number zero? -/
def isZero (x : α) : Bool := le x (ofInt 0) && le (ofInt 0) x

/-- The sum, from the left, beginning with zero. The order matters for numbers that are rounded. -/
def sum (xs : List α) : α := xs.foldl (· + ·) (ofInt 0)

/-- The arithmetic mean; it is used where there is at least one number. -/
def mean (xs : List α) : α := sum xs / ofInt xs.length

end Scalar

/-- The number that a value stands for: numbers and truth values, and texts that denote a number.
Anything else is a fault, null among it. -/
def Value.toScalar {α : Type} [Scalar α] (value : Value) : Except Fault α :=
  let convert (x : Number) : Except Fault α := (Scalar.ofNumber x).mapError Fault.ofArithmetic
  match value with
  | .text s =>
    (Numeral.convert? s).elim (.error (.unusable (.notNumber s))) fun x => convert (.double x)
  | value => value.number?.elim (.error .incompatible) convert

/-- The number that a cell of a block stands for; null is no number there, and spoils what is
computed with it instead of failing. -/
def Value.toCell {α : Type} [Scalar α] : Value → Except Fault α
  | .null => (Value.double .nan).toScalar
  | value => value.toScalar

/-- The numbers of a block, in the order of its cells; the first cell that stands for none is the
fault. -/
def Grid.numbers {α : Type} [Scalar α] (g : Grid) : Except Fault (List α) :=
  g.cells.mapM Value.toCell

/-! ### Quantiles

The quantile at a fraction is the point at that fraction of the way through the sorted values,
interpolated between two neighbours. `quantileSorted` holds the formula, and the definitions around
it bring values into the form that it needs. -/

section Quantile

variable {α : Type} [Scalar α]

/-- The point at a fraction `t` of the way from `a` to `b`, computed from the nearer end, so that it
is `b` itself at one. -/
def interpolate (a b t : α) : α :=
  if Scalar.le (Scalar.ofInt 1 / Scalar.ofInt 2) t then b - (b - a) * (Scalar.ofInt 1 - t)
  else a + (b - a) * t

/-- The quantile of sorted values: at position `fraction * (n - 1)`, between its neighbours. There
is none of no values. From the last position on, both neighbours are the greatest value. -/
def quantileSorted (sorted : List α) (fraction : α) : Option α :=
  let last : Int := (sorted.length : Int) - 1
  let position := Scalar.ofInt last * fraction
  if Scalar.le (Scalar.ofInt last) position then
    sorted.getLast?.map fun greatest => interpolate greatest greatest (position + Scalar.ofInt 1)
  else
    let below := (Scalar.floor position).toNat
    match sorted[below]?, sorted[below + 1]? with
    | some a, some b => some (interpolate a b (position - Scalar.ofInt below))
    | _, _ => none

/-- The quantile of values in any order. An unordered value has no place among the others, and is
the quantile itself, the first one if there are several. -/
def quantile (values : List α) (fraction : α) : Option α :=
  match values.find? Scalar.isUnordered with
  | some x => some x
  | none => quantileSorted (values.mergeSort Scalar.le) fraction

/-- The least value, or the greatest, where an unordered value counts as both. -/
def extreme (greatest : Bool) (values : List α) : Option α :=
  match values.find? Scalar.isUnordered with
  | some x => some x
  | none =>
    let sorted := values.mergeSort Scalar.le
    if greatest then sorted.getLast? else sorted.head?

end Quantile

/-! ### Slopes

The slope is the sum of products of deviations over the sum of squares of deviations, about the two
means. It is taken over the points that have both coordinates, and there is none if all of them lie
above one another. -/

/-- The slope of the line of best fit through points, if there are two of different `x`. Otherwise
any line through the mean would fit as well. -/
def leastSquaresSlope {α : Type} [Scalar α] (points : List (α × α)) : Option α :=
  if points.length < 2 then none
  else
    let meanX := Scalar.mean (points.map (·.1))
    let meanY := Scalar.mean (points.map (·.2))
    let xx := Scalar.sum (points.map fun p => (p.1 - meanX) * (p.1 - meanX))
    let xy := Scalar.sum (points.map fun p => (p.1 - meanX) * (p.2 - meanY))
    if Scalar.isZero xx then none else some (xy / xx)

/-- What comes of the slope of points that are blocks themselves: the products of such blocks are
no numbers, if they exist at all. -/
def blockSlope (shape : List Nat) : Fault :=
  if shape[shape.length - 1]? = shape[shape.length - 2]? then .incompatible
  else .unusable (.misaligned shape)

/-- Numbers in pairs, as the rows of a block of two columns follow one another; a number left over
is dropped. -/
def inPairs {α : Type} : List α → List (α × α)
  | x :: y :: rest => (x, y) :: inPairs rest
  | _ => []

/-- The slope of the line of best fit through points, without those that lack a coordinate. The
coordinates have to be numbers, or lists that form a block, whose products then fail. -/
def slopeOfPoints {α : Type} [Scalar α] (points : List (Value × Value)) :
    Except Fault (Option α) := do
  let grid ← Grid.ofPairs (points.filter fun p => !p.1.isNull && !p.2.isNull)
  let numbers : List α ← grid.numbers
  match grid.shape with
  | n :: _ :: side :: sides =>
    if n < 2 then return none else .error (blockSlope (n :: side :: sides))
  | _ => return leastSquaresSlope (inPairs numbers)

/-! ### Percentiles of values

From here on the values are those of rows, so their kinds have to be made sense of: what is null is
left out, what is nested is taken as a block, and the fraction may be a number of any kind. -/

/-- Is the number a fraction of one? -/
def Number.isFraction (x : Number) : Bool := (Number.int 0).le x && x.le (.int 1)

/-- The fraction of one that a value is, the two ends included. A NaN lies within no bounds. -/
def Value.requireFraction (value : Value) : Except Fault Number := do
  let f ← value.requireNumber
  if f.isFraction then return f else .error (.unusable (.fractionOutOfRange value))

/-- The percentile at a fraction that is a number: one that is an integer by kind picks the least
or the greatest value, and a binary64 number is interpolated at. A decimal is neither. -/
def percentileAt {α : Type} [Scalar α] (numbers : List α) : Number → Except Fault (Option α)
  | .decimal _ => .error .incompatible
  | .double x =>
    ((Scalar.ofNumber (.double x)).mapError Fault.ofArithmetic).map (quantile numbers)
  | .int n => .ok (extreme (n != 0) numbers)
  | .flag b => .ok (extreme b numbers)

/-- The percentile of the values that are not null; there is none of no values. The fraction is
looked at first, also where there are none. -/
def percentile (α : Type) [Scalar α] (values : List Value) (fraction : Value) :
    Except Fault (Option α) := do
  let f ← fraction.requireFraction
  let grid ← Grid.ofItems (values.filter fun v => !v.isNull)
  let numbers : List α ← grid.numbers
  if numbers.isEmpty then return none else percentileAt numbers f

/-- The part `part` of `whole` as a fraction. It is kept as two natural numbers, so that the
fractions of a legend are exact until they are needed as numbers. -/
structure Cut where
  part : Nat
  whole : Nat
  deriving DecidableEq, Repr

namespace Cut

/-- The cuts between `n` equal parts, one fewer than there are parts. -/
def between (n : Nat) : List Cut := (List.range (n - 1)).map fun i => ⟨i + 1, n⟩

/-- The cut in the middle. -/
def middle : Cut := ⟨1, 2⟩

/-- A cut as a binary64 number, rounded once. -/
def toDouble (c : Cut) : Double := Number.divInt c.part c.whole

end Cut

/-! ### Changes

What changes from one year to the next, of stored values. Null is no number here but the lack of
one, and the change from or to it is null. -/

/-- The difference of two values, null if one of them is. Values that are no numbers, or of kinds
that cannot be joined, are a fault. -/
def difference (current base : Value) : Except Fault Value :=
  if current.isNull || base.isNull then .ok .null
  else do
    let d ← ((← current.requireNumber).sub (← base.requireNumber)).mapError Fault.ofArithmetic
    return d.toValue

/-- The change in percent, to two places; null without a base, and from a base of zero. It is the
difference times a hundred over the base, in this order, and rounded at the end. -/
def percentChange (current base : Value) : Except Fault Value :=
  if base.isNull || base.same (.int 0) || current.isNull then .ok .null
  else do
    let c ← current.requireNumber
    let b ← base.requireNumber
    let change : Except Number.Failure Number := do
      let scaled ← (Number.int 100).mul (← c.sub b)
      (← scaled.div b).roundPlaces 2
    return (← change.mapError Fault.ofArithmetic).toValue

/-- The months of a year. -/
def monthsInYear : Nat := 12

/-- The months since the beginning of the calendar. Twelve times a text or a list is that many
copies of it, and the month is then put behind them, so only the two kinds that can be repeated do
not fail on the spot. -/
def monthOrdinal : Value → Value → Except Fault Value
  | .text year, .text month => .ok (.text (String.join (List.replicate monthsInYear year) ++ month))
  | .list year, .list month => .ok (.list ((List.replicate monthsInYear year).flatten ++ month))
  | year, month => do
    let y ← year.requireNumber
    let m ← month.requireNumber
    let ordinal : Except Number.Failure Number := do (← y.mul (.int monthsInYear)).add m
    return (← ordinal.mapError Fault.ofArithmetic).toValue

end PropertyMarket
