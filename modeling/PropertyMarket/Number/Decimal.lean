import PropertyMarket.Number.Double

/-!
# Exact decimals with a scale

A decimal keeps the number of its places: `10.50` and `10.5` are the same number and are written
differently. Results are kept to 28 significant digits, a half going to the even neighbour.

## Main definitions

* `Decimal` — `± coefficient * 10 ^ exponent`
* `Decimal.ofText?`, `Decimal.toText` — reading and writing
* `Decimal.sub?`, `mul?`, `div?`, `quantize?` — arithmetic in 28 digits

## Implementation notes

The coefficient is a natural number with the sign beside it, since a negative zero is written
differently from a positive one. Every result goes through `clip?`, so the rounding to 28 digits is
defined once, and the operations before it are exact, or keep as much of the exact result as decides
its rounding. That is what the last digit in `div?` and the single unit in `trace` are for: they
stand for a rest that is not zero and is too small to matter otherwise.
-/

namespace PropertyMarket

/-- The decimal `± coefficient * 10 ^ exponent`. Two of them can denote one number with different
numbers of places; they are equal as numbers and not as terms. -/
structure Decimal where
  negative : Bool
  coefficient : Nat
  exponent : Int
  deriving DecidableEq, Repr, Inhabited

namespace Decimal

/-- The significant digits that a result keeps. -/
def precision : Nat := 28

/-- An integer as a decimal without places. -/
def ofInt (n : Int) : Decimal := ⟨n < 0, n.natAbs, 0⟩

/-- The coefficient with its sign. -/
def signed (x : Decimal) : Int := if x.negative then -(x.coefficient : Int) else x.coefficient

/-- The denoted rational as a numerator and a positive denominator, of which one is a power of ten
and the other one takes the coefficient. -/
def quotient (x : Decimal) : Int × Nat :=
  (x.signed * Nat.pow 10 x.exponent.toNat, Nat.pow 10 (-x.exponent).toNat)

/-- The denoted rational. -/
def toRat (x : Decimal) : Rat := mkRat x.quotient.1 x.quotient.2

/-- The nearest binary64 number. -/
def toDouble (x : Decimal) : Double := Double.ofDecimal x.negative x.coefficient x.exponent

/-- Is the value zero, of either sign? -/
def isZero (x : Decimal) : Bool := x.coefficient == 0

/-- The denoted integer, if the value is one. -/
def toInt? (x : Decimal) : Option Int :=
  if x.quotient.1 % x.quotient.2 = 0 then some (x.quotient.1 / x.quotient.2) else none

/-! ### Reading and writing

A decimal is written with the places that it has, and reading gives them back; so writing what was
read keeps the text of a plain number. An exponent is read and, where the first digit is far behind
the point, written. -/

/-- The digits of an exponent with its sign. There has to be at least one of them, and nothing
else. -/
def readExponent (cs : List Char) : Option Int :=
  let digits (ds : List Char) : Option Nat :=
    if ds ≠ [] ∧ ds.all Char.isDigit then some (natOfDigits ds) else none
  match cs with
  | '-' :: ds => (digits ds).map fun n => -(n : Int)
  | '+' :: ds => (digits ds).map Int.ofNat
  | ds => (digits ds).map Int.ofNat

/-- Digits, a point with more digits, and an exponent; at least one digit before the exponent. The
exponent of the result counts the places after the point. -/
def readUnsigned (negative : Bool) (cs : List Char) : Option Decimal :=
  let whole := cs.takeWhile Char.isDigit
  let rest := cs.dropWhile Char.isDigit
  let (places, rest) := match rest with
    | '.' :: r => (r.takeWhile Char.isDigit, r.dropWhile Char.isDigit)
    | r => ([], r)
  let digits := whole ++ places
  let exponent := match rest with
    | [] => some 0
    | 'e' :: r | 'E' :: r => readExponent r
    | _ => none
  if digits = [] then none
  else exponent.map fun e => ⟨negative, natOfDigits digits, e - places.length⟩

/-- The decimal that a text denotes, with the places it is written with. Neither blanks nor words
are read. -/
def ofText? (s : String) : Option Decimal :=
  match s.toList with
  | '-' :: cs => readUnsigned true cs
  | '+' :: cs => readUnsigned false cs
  | cs => readUnsigned false cs

/-- The digits of the coefficient with a point before the last `places` of them. -/
def pointed (digits : List Char) (places : Nat) : List Char :=
  if places = 0 then digits
  else if places < digits.length then
    digits.take (digits.length - places) ++ '.' :: digits.drop (digits.length - places)
  else '0' :: '.' :: List.replicate (places - digits.length) '0' ++ digits

/-- The places are written out when there are any to write and the first digit is not far behind
the point; otherwise one digit stands before the point and an exponent follows. -/
def toText (x : Decimal) : String :=
  let digits := digitChars x.coefficient
  let adjusted := x.exponent + digits.length - 1
  let body :=
    if x.exponent ≤ 0 ∧ -6 ≤ adjusted then pointed digits (-x.exponent).toNat
    else pointed digits (digits.length - 1) ++ 'E' :: (if adjusted < 0 then '-' else '+') ::
      digitChars adjusted.natAbs
  String.ofList (if x.negative then '-' :: body else body)

/-! ### Arithmetic

Results keep 28 significant digits. The places of a result are chosen from those of the operands: a
sum has the places of the finer one, a product those of both together, and an exact quotient as few
as it can have. What is too large for a decimal is no result at all. -/

/-- The greatest place of the first digit of a result. -/
def topPlace : Int := 999999

/-- The least place of the last digit of a result. -/
def bottomPlace : Int := -topPlace - precision + 1

/-- The place of the first digit. -/
def place (x : Decimal) : Int := x.exponent + digitCount x.coefficient - 1

/-- The value in units of `10 ^ unit`. -/
def inUnits (unit : Int) (x : Decimal) : Decimal :=
  let c := if x.place + 1 < unit then 0
    else roundQuotient x.coefficient (Nat.pow 10 (unit - x.exponent).toNat)
  if digitCount c ≤ precision then ⟨x.negative, c, unit⟩ else ⟨x.negative, c / 10, unit + 1⟩

/-- The value with at most 28 digits, of which none has a place below the least one; nothing if it
is too large. All results are rounded here and nowhere else. -/
def clip? (x : Decimal) : Option Decimal :=
  if x.coefficient = 0 then some { x with exponent := max bottomPlace (min x.exponent topPlace) }
  else
    let unit := max bottomPlace (x.exponent + digitCount x.coefficient - precision)
    let kept := if unit ≤ x.exponent then x else inUnits unit x
    if topPlace < kept.place then none else some kept

/-- What stands for `small` beside `big` where only its being there can show in their sum. The sum
of a large and a tiny decimal is then one of few digits, whatever their places are. -/
def trace (big small : Decimal) : Decimal :=
  let unit := big.exponent - 1 - (precision + 1 - digitCount big.coefficient : Nat)
  if big.coefficient ≠ 0 ∧ small.place < unit then
    { small with coefficient := if small.coefficient = 0 then 0 else 1, exponent := unit }
  else small

/-- The difference, with the places of the finer of the two. An exact zero is negative only
if a negative zero loses a positive one. -/
def sub? (x y : Decimal) : Option Decimal :=
  let (x, y) := if y.exponent ≤ x.exponent then (x, trace x y) else (trace y x, y)
  let unit := min x.exponent y.exponent
  let a := x.signed * Nat.pow 10 (x.exponent - unit).toNat
  let b := y.signed * Nat.pow 10 (y.exponent - unit).toNat
  let negative := if a - b = 0 then x.negative && !y.negative else decide (a - b < 0)
  clip? ⟨negative, (a - b).natAbs, unit⟩

/-- The product. -/
def mul? (x y : Decimal) : Option Decimal :=
  clip? ⟨x.negative != y.negative, x.coefficient * y.coefficient, x.exponent + y.exponent⟩

/-- Drops zeros at the end of an exact quotient while its exponent is below `ideal`. The number of
digits is enough fuel, since each step drops one. -/
def reduce (ideal : Int) : Nat → Nat → Int → Nat × Int
  | 0, c, e => (c, e)
  | fuel + 1, c, e =>
    if e < ideal ∧ c % 10 = 0 then reduce ideal fuel (c / 10) (e + 1) else (c, e)

/-- The quotient by a non-zero decimal: exact if 28 digits suffice, and then with the fewest
places that do not fall short of the places of `x` less those of `y`. -/
def div? (x y : Decimal) : Option Decimal :=
  let negative := x.negative != y.negative
  let ideal := x.exponent - y.exponent
  if x.coefficient = 0 then clip? ⟨negative, 0, ideal⟩
  else
    let shift := (digitCount y.coefficient : Int) - digitCount x.coefficient + precision + 1
    let num := x.coefficient * Nat.pow 10 shift.toNat
    let den := y.coefficient * Nat.pow 10 (-shift).toNat
    let e := ideal - shift
    if num % den = 0 then
      let (c, e) := reduce ideal (digitCount (num / den)) (num / den) e
      clip? ⟨negative, c, e⟩
    else
      -- A last digit that is neither 0 nor 5 stands for the dropped rest, so that one rounding
      -- of the longer quotient is the rounding of the exact one.
      let q := num / den
      clip? ⟨negative, if q % 5 = 0 then q + 1 else q, e⟩

/-- The value rounded to a number of places, if 28 digits hold it. Unlike `clip?` it fixes the
places first, and fails where the digits do not suffice. -/
def quantize? (places : Nat) (x : Decimal) : Option Decimal :=
  let e := -(places : Int)
  if x.coefficient = 0 then some { x with exponent := e }
  else if e + precision ≤ x.place then none
  else if x.place + 1 < e then some ⟨x.negative, 0, e⟩
  else
    let shift := x.exponent - e
    let c := roundQuotient (x.coefficient * Nat.pow 10 shift.toNat) (Nat.pow 10 (-shift).toNat)
    if digitCount c ≤ precision then some ⟨x.negative, c, e⟩ else none

end Decimal

end PropertyMarket
