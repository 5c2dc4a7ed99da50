import PropertyMarket.Number.Double

/-!
# The fewest decimal digits that read back

A finite binary64 number is written with the fewest significant digits whose decimal value still
rounds to it, and among those with the digits nearest to its exact value.

## Main definitions

* `Double.Interval` — the rationals that round to one binary64 number
* `Double.shortest` — its digits and the place of their decimal point

## Implementation notes

With `n` digits the candidates are the two neighbours of the exact value on the grid of spacing
`10 ^ (point - n)`: if any point of the grid reads back, one of these does. The search over `n`
therefore tests two candidates for each of 1 to 17 digits; seventeen always suffice.
-/

namespace PropertyMarket

namespace Double

/-- The decimal digits of a positive value: `0.d₁d₂…dₙ * 10 ^ point`. The digits are kept as one
natural number, and how many there are is seen from it. -/
structure Digits where
  digits : Nat
  point : Int
  deriving DecidableEq, Repr

/-- The rationals `[low, high] / den` that round to a number; the ends belong if `closed`. The
number itself is `value / den`, over the same denominator, so all tests are between natural
numbers. -/
structure Interval where
  low : Nat
  value : Nat
  high : Nat
  den : Nat
  closed : Bool
  deriving DecidableEq, Repr

/-- The interval of `m * 2 ^ e`, all in units of `2 ^ (e - 2)`. Below a power of two the next number
is only half a unit away. The ends are ties, and they belong to the number if its significand is
even. -/
def interval (m : Nat) (e : Int) : Interval :=
  let lowGap := if m = Nat.pow 2 (precision - 1) ∧ minExponent < e then 1 else 2
  let unit := Nat.pow 2 (e - 2).toNat
  { low := (4 * m - lowGap) * unit, value := 4 * m * unit, high := (4 * m + 2) * unit
    den := Nat.pow 2 (2 - e).toNat, closed := m % 2 = 0 }

/-- Does `num / den` lie in the interval? -/
def Interval.contains (i : Interval) (num den : Nat) : Bool :=
  if i.closed then i.low * den ≤ num * i.den && num * i.den ≤ i.high * den
  else i.low * den < num * i.den && num * i.den < i.high * den

/-- The exponent `p` with `10 ^ (p - 1) ≤ num / den < 10 ^ p`. Below one it is found from the
reciprocal, up to one place that the last comparison decides. -/
def decimalPoint (num den : Nat) : Int :=
  if den ≤ num then digitCount (num / den)
  else
    let t := digitCount (den / num)
    if den ≤ num * Nat.pow 10 (t - 1) then 2 - (t : Int) else 1 - (t : Int)

/-- The nearer of the two neighbours of `num / den` with `n` digits that lies in the interval;
an exact tie takes the even one. -/
def candidate? (i : Interval) (point : Int) (n : Nat) : Option Nat :=
  let shift := (n : Int) - point
  let num := i.value * Nat.pow 10 shift.toNat
  let den := i.den * Nat.pow 10 (-shift).toNat
  let low := num / den
  let reads (d : Nat) : Bool := i.contains (d * Nat.pow 10 (-shift).toNat) (Nat.pow 10 shift.toNat)
  match reads low, reads (low + 1) with
  | true, true => some (roundQuotient num den)
  | true, false => some low
  | false, true => some (low + 1)
  | false, false => none

/-- The first number of digits, from `n` on, that has a candidate. The fuel is the number of digits
that are left to try; when it is used up the last candidate is taken. -/
def searchDigits (i : Interval) (point : Int) : Nat → Nat → Digits
  | 0, n => ⟨(candidate? i point n).getD 0, point + (0 : Nat) - n⟩
  | fuel + 1, n =>
    match candidate? i point n with
    | some d => ⟨d, point - n⟩
    | none => searchDigits i point fuel (n + 1)

/-- Drops the zeros at the end of the digits, each of them against a step of the exponent. -/
def stripZeros : Nat → Nat → Int → Nat × Int
  | 0, d, e => (d, e)
  | fuel + 1, d, e => if d ≠ 0 ∧ d % 10 = 0 then stripZeros fuel (d / 10) (e + 1) else (d, e)

/-- The fewest digits that read back as the positive number `m * 2 ^ e`, without zeros at
their end; the value is `0.digits * 10 ^ point`. -/
def shortest (m : Nat) (e : Int) : Digits :=
  let i := interval m e
  let found := searchDigits i (decimalPoint i.value i.den) 16 1
  let (digits, exponent) := stripZeros 20 found.digits found.point
  ⟨digits, exponent + digitCount digits⟩

end Double

end PropertyMarket
