import PropertyMarket.Number.Rounding

/-!
# Binary64 numbers

A binary64 number is kept as the exact dyadic rational it denotes. Every operation is the exact
rational operation followed by one rounding to the nearest binary64 number, a tie going to the
even significand, so that each result can be reasoned about as a rounded rational.

## Main definitions

* `Double` — a binary64 number: a finite one is `± significand * 2 ^ exponent`
* `Double.ofQuotient` — the binary64 number nearest to a rational
* `Double.add`, `sub`, `mul`, `div` — the rounded operations
* `Double.lt`, `le`, `same` — the order of the denoted values; a NaN is unordered

## Implementation notes

A finite value is normal when its significand has 53 bits, or when its exponent is
`minExponent`. `ofQuotient` only builds normal values, so equal numbers of one sign are equal
as terms.
-/

namespace PropertyMarket

/-- A binary64 number: `finite s m e` denotes `m * 2 ^ e`, negated if `s`. Zero has a sign as well,
and the two zeros are the same number but different terms. -/
inductive Double where
  | nan
  | infinite (negative : Bool)
  | finite (negative : Bool) (significand : Nat) (exponent : Int)
  deriving DecidableEq, Repr, Inhabited

namespace Double

/-- The number of bits of a full significand. -/
def precision : Nat := 53

/-- The exponent of the least unit, that of the subnormal numbers. -/
def minExponent : Int := -1074

/-- The exponent of the unit of the largest numbers. -/
def maxExponent : Int := 971

/-- Zero, with a sign. -/
def zeroOf (negative : Bool) : Double := .finite negative 0 minExponent

/-- Positive zero. -/
def zero : Double := zeroOf false

/-- `num / den` in units of `2 ^ e`, as a quotient of natural numbers: the power goes to the side on
which it is one. -/
def inUnits (num den : Nat) (e : Int) : Nat × Nat :=
  (num * Nat.pow 2 (-e).toNat, den * Nat.pow 2 e.toNat)

/-- The exponent of the unit in which `num / den` has 53 bits, and never below `minExponent`. The
binary logarithms give it up to one, and the division in those units decides which of the two it
is. -/
def unitExponent (num den : Nat) : Int :=
  let low := max minExponent ((num.log2 : Int) - den.log2 - precision)
  let units := inUnits num den low
  if Nat.pow 2 precision ≤ units.1 / units.2 then low + 1 else low

/-- A finite value, or the infinity of its sign if the exponent is out of range. -/
def pack (negative : Bool) (significand : Nat) (exponent : Int) : Double :=
  if maxExponent < exponent then .infinite negative else .finite negative significand exponent

/-- The binary64 number nearest to `num / den`, a tie going to the even significand. Rounding up to
the next power of two is repaired by taking the unit twice as large. -/
def ofQuotient (negative : Bool) (num den : Nat) : Double :=
  if num = 0 then zeroOf negative
  else
    let e := unitExponent num den
    let units := inUnits num den e
    let m := roundQuotient units.1 units.2
    if m = Nat.pow 2 precision then pack negative (Nat.pow 2 (precision - 1)) (e + 1)
    else pack negative m e

/-- The binary64 number nearest to `± m * 2 ^ e`. Sums and products are exact in this form before
they are rounded. -/
def ofDyadic (negative : Bool) (m : Nat) (e : Int) : Double :=
  ofQuotient negative (m * Nat.pow 2 e.toNat) (Nat.pow 2 (-e).toNat)

/-- The binary64 number nearest to `± digits * 10 ^ e`. Exponents far outside the range of
binary64 need no power of ten: the value is infinite or zero. -/
def ofDecimal (negative : Bool) (digits : Nat) (e : Int) : Double :=
  if digits = 0 then zeroOf negative
  else if 400 < digitCount digits + e then .infinite negative
  else if digitCount digits + e < -400 then zeroOf negative
  else ofQuotient negative (digits * Nat.pow 10 e.toNat) (Nat.pow 10 (-e).toNat)

/-- The binary64 number nearest to an integer; an integer beyond the range becomes infinite. -/
def ofInt (n : Int) : Double := ofQuotient (n < 0) n.natAbs 1

/-- The binary64 number nearest to an integer, if it is finite. -/
def ofInt? (n : Int) : Option Double :=
  match ofInt n with
  | .infinite _ => none
  | x => some x

/-! ### What a number denotes

A finite number denotes one rational, and nothing else does. These functions are the only passage
from binary64 numbers to rationals and integers: what is proved of arithmetic and of comparisons is
proved of the quotients that they return. -/

/-- Is the number neither infinite nor a NaN? -/
def isFinite : Double → Bool
  | .finite .. => true
  | _ => false

/-- Is the number a NaN? -/
def isNaN : Double → Bool
  | .nan => true
  | _ => false

/-- The sign, where zeros and infinities have one too. -/
def isNegative : Double → Bool
  | .nan => false
  | .infinite s => s
  | .finite s _ _ => s

/-- The denoted rational as a numerator and a positive denominator. Nothing is reduced: the
denominator is a power of two. -/
def quotient? : Double → Option (Int × Nat)
  | .finite s m e =>
    let units := m * Nat.pow 2 e.toNat
    some (if s then -(units : Int) else units, Nat.pow 2 (-e).toNat)
  | _ => none

/-- The denoted rational. -/
def toRat? (x : Double) : Option Rat :=
  x.quotient?.map fun q => mkRat q.1 q.2

/-- The denoted integer, if the value is one. -/
def toInt? (x : Double) : Option Int :=
  match x.quotient? with
  | some (n, d) => if n % d = 0 then some (n / d) else none
  | none => none

/-- The largest integer that is at most the value. Division of integers rounds down, so negative
values need no case of their own. -/
def floor? (x : Double) : Option Int :=
  x.quotient?.map fun q => q.1 / q.2

/-! ### Arithmetic

Each operation is exact up to one rounding at its end. The cases of infinities and NaNs come first
in every definition, and the last case is the one of two finite numbers, the only one in which
anything is rounded. -/

/-- The number with the other sign. -/
def neg : Double → Double
  | .nan => .nan
  | .infinite s => .infinite !s
  | .finite s m e => .finite (!s) m e

/-- The rounded sum. An exact zero is negative only if both terms are. Infinities of different signs
have no sum. -/
def add : Double → Double → Double
  | .nan, _ | _, .nan => .nan
  | .infinite s, .infinite t => if s = t then .infinite s else .nan
  | .infinite s, _ => .infinite s
  | _, .infinite t => .infinite t
  | .finite s m e, .finite t n f =>
    let unit := min e f
    let a : Int := (m * Nat.pow 2 (e - unit).toNat : Nat)
    let b : Int := (n * Nat.pow 2 (f - unit).toNat : Nat)
    let sum := (if s then -a else a) + (if t then -b else b)
    if sum = 0 then zeroOf (s && t) else ofDyadic (sum < 0) sum.natAbs unit

/-- The rounded difference, which is the sum with the second number's sign changed. No second
rounding comes in. -/
def sub (x y : Double) : Double := x.add y.neg

/-- The rounded product. The sign is that of the signs, for zeros and infinities too; zero times an
infinity is a NaN. -/
def mul : Double → Double → Double
  | .nan, _ | _, .nan => .nan
  | .finite s m e, .finite t n f => ofDyadic (s != t) (m * n) (e + f)
  | .finite s m _, .infinite t | .infinite s, .finite t m _ =>
    if m = 0 then .nan else .infinite (s != t)
  | .infinite s, .infinite t => .infinite (s != t)

/-- The rounded quotient. By zero it is infinite, and a NaN if the first number is zero as well; no
division here fails. -/
def div : Double → Double → Double
  | .nan, _ | _, .nan => .nan
  | .infinite _, .infinite _ => .nan
  | .infinite s, .finite t _ _ => .infinite (s != t)
  | .finite s _ _, .infinite t => zeroOf (s != t)
  | .finite s m e, .finite t n f =>
    if n = 0 then (if m = 0 then .nan else .infinite (s != t))
    else
      let unit := min e f
      ofQuotient (s != t) (m * Nat.pow 2 (e - unit).toNat) (n * Nat.pow 2 (f - unit).toNat)

instance : Neg Double := ⟨neg⟩
instance : Add Double := ⟨add⟩
instance : Sub Double := ⟨sub⟩
instance : Mul Double := ⟨mul⟩
instance : Div Double := ⟨div⟩
instance (n : Nat) : OfNat Double n := ⟨ofInt n⟩

/-! ### Order

The order is the one of the denoted values. It is a partial one because of the NaN, and two terms
can be equal in it without being equal, as the two zeros are; so it is not read off the equality of
terms. -/

/-- The order of the denoted values; `none` if one of them is a NaN. Finite numbers are compared
exactly, by their quotients. -/
def compare? : Double → Double → Option Ordering
  | .nan, _ | _, .nan => none
  | .infinite s, .infinite t =>
    some (if s = t then .eq else if s then .lt else .gt)
  | .infinite s, _ => some (if s then .lt else .gt)
  | _, .infinite t => some (if t then .gt else .lt)
  | x@(.finite ..), y@(.finite ..) =>
    match x.quotient?, y.quotient? with
    | some (a, b), some (c, d) => some (compare (a * d) (c * b))
    | _, _ => none

/-- Strictly less, as numbers. -/
def lt (x y : Double) : Bool := compare? x y == some .lt

/-- Less or equal, as numbers. -/
def le (x y : Double) : Bool := compare? x y == some .lt || compare? x y == some .eq

/-- The same number: `0.0` and `-0.0` are, a NaN is not the same as itself. -/
def same (x y : Double) : Bool := compare? x y == some .eq

/-- Is the value zero, of either sign? -/
def isZero (x : Double) : Bool := x.same zero

/-! ### Rounding to decimal places -/

/-- The value rounded to a multiple of `10 ^ -places`, exactly and a half to even, then to the
nearest binary64 number. Infinities and NaNs are left as they are. The tie is judged on the exact
value of the number and not on its written digits. -/
def roundPlaces (places : Nat) : Double → Double
  | .finite s m e =>
    let num := m * Nat.pow 2 e.toNat * Nat.pow 10 places
    ofQuotient s (roundQuotient num (Nat.pow 2 (-e).toNat)) (Nat.pow 10 places)
  | x => x

end Double

end PropertyMarket
