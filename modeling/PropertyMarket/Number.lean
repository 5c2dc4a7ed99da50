import PropertyMarket.Number.Numeral
import PropertyMarket.Number.Decimal

/-!
# Numbers of several kinds

Values read from a store or a request are integers, binary64 numbers, decimals, or truth values
that count as 0 and 1. They are compared by the exact values they denote, whatever their kind;
arithmetic keeps integers exact, and joins an integer with a binary64 number in binary64.

## Main definitions

* `Number` — a number of one of the kinds
* `Number.lt`, `le`, `same` — the exact order across kinds
* `Number.before?` — the same where every pair has an order, which a decimal and a NaN have not
* `Number.sub`, `mul`, `div`, `roundPlaces`, `toDouble` — arithmetic, which can fail

## Implementation notes

Joining a decimal with a binary64 number is refused, since either conversion would lose the
exactness of one side.
-/

namespace PropertyMarket

/-- A number of one of the kinds. A truth value is among them because a row or a request may hold
one where a number is expected, and it is then computed with as one or zero. -/
inductive Number where
  | flag (value : Bool)
  | int (value : Int)
  | double (value : Double)
  | decimal (value : Decimal)
  deriving DecidableEq, Repr, Inhabited

namespace Number

/-- Why arithmetic fails. -/
inductive Failure where
  /-- The kinds cannot be joined. -/
  | incompatible
  /-- A whole number is too large for binary64. -/
  | tooLarge
  /-- A decimal is too large to be kept. -/
  | decimalTooLarge
  /-- A decimal has more digits than are kept. -/
  | tooPrecise
  /-- A decimal has no order with a NaN. -/
  | unordered
  deriving DecidableEq, Repr

/-- The integer that a truth value counts as. -/
def ofFlag (b : Bool) : Int := if b then 1 else 0

/-- The denoted rational as a numerator and a positive denominator. All comparisons go through it,
so that no number is rounded before it is compared. -/
def quotient? : Number → Option (Int × Nat)
  | .flag b => some (ofFlag b, 1)
  | .int n => some (n, 1)
  | .double x => x.quotient?
  | .decimal d => some d.quotient

/-- The denoted rational, unless the number is infinite or a NaN. This is the reading of a number in
the theorems: what is said there of numbers is said of these rationals. -/
def toRat? (x : Number) : Option Rat := x.quotient?.map fun q => mkRat q.1 q.2

/-- The denoted integer, if the value is one. It need not be an integer by kind: a binary64 number
or a decimal without a fraction has one too. -/
def toInt? : Number → Option Int
  | .flag b => some (ofFlag b)
  | .int n => some n
  | .double x => x.toInt?
  | .decimal d => d.toInt?

/-- The nearest binary64 number. An integer beyond the range fails; a decimal beyond it becomes
infinite. -/
def toDouble : Number → Except Failure Double
  | .flag b => .ok (Double.ofInt (ofFlag b))
  | .int n => ((Double.ofInt? n).elim (.error .tooLarge) .ok)
  | .double x => .ok x
  | .decimal d => .ok d.toDouble

/-! ### Order

The order is that of the denoted rationals, with the infinities at the ends, and it is exact: a
binary64 number and an integer beside it are not brought to one kind first. A NaN is neither less
than, nor equal to, nor greater than anything, itself included, so `lt`, `le` and `same` are all
false of it. -/

/-- The order of the denoted values; `none` if one of them is a NaN. Two rationals are compared by
multiplying crosswise, which is sound because the denominators are positive. -/
def compare? (x y : Number) : Option Ordering :=
  match x.quotient?, y.quotient? with
  | some (a, b), some (c, d) => some (compare (a * d) (c * b))
  | _, _ => Double.compare? (special x) (special y)
where
  /-- An infinity or a NaN as it is; any other number has the place of zero. -/
  special : Number → Double
    | .double x => if x.isFinite then .zero else x
    | _ => .zero

/-- Strictly less. -/
def lt (x y : Number) : Bool := compare? x y == some .lt

theorem lt_int (m n : Int) : (int m).lt (int n) = decide (m < n) := by
  have order : compare? (int m) (int n) = some (compare m n) := by
    simp only [compare?, quotient?, Int.cast_ofNat_Int, Int.mul_one]
  rw [lt, order, Int.compare_eq_ite_lt]
  by_cases h : m < n
  · rw [if_pos h, decide_eq_true h]
    rfl
  · rw [if_neg h, decide_eq_false h]
    split <;> rfl

/-- Less or equal. -/
def le (x y : Number) : Bool := compare? x y == some .lt || compare? x y == some .eq

/-- The same value, whatever the kinds. -/
def same (x y : Number) : Bool := compare? x y == some .eq

/-- Is the value zero? -/
def isZero (x : Number) : Bool := x.same (.int 0)

/-- Is it less, or, if ties count, the same? A decimal has no order with a NaN: the comparison fails
where that of a binary64 number would answer no. -/
def before? (ties : Bool) (x y : Number) : Except Failure Bool :=
  match x, y with
  | .decimal _, .double .nan | .double .nan, .decimal _ => .error .unordered
  | x, y => .ok (if ties then x.le y else x.lt y)

/-! ### Arithmetic

Two numbers are joined in the kind of the less exact one: integers stay integers, an integer beside
a decimal becomes a decimal, and an integer beside a binary64 number becomes the nearest one. Every
operation can fail, and the failures are results like any other, since a row decides whether they
occur. -/

/-- The integer of a number that is one by kind, a truth value among them. -/
def asInt? : Number → Option Int
  | .flag b => some (ofFlag b)
  | .int n => some n
  | _ => none

/-- Applies the operation of the kind in which two numbers are joined. The defaults in it are never
used: they stand in cases in which both numbers are known to be integers by kind. -/
def join (ints : Int → Int → Number) (doubles : Double → Double → Number)
    (decimals? : Decimal → Decimal → Option Decimal) (x y : Number) : Except Failure Number :=
  let decimals (a b : Decimal) : Except Failure Number :=
    (decimals? a b).elim (.error .decimalTooLarge) (.ok ∘ .decimal)
  match x, y with
  | .decimal _, .double _ | .double _, .decimal _ => .error .incompatible
  | .decimal a, .decimal b => decimals a b
  | .decimal a, b => decimals a (Decimal.ofInt (b.asInt?.getD 0))
  | a, .decimal b => decimals (Decimal.ofInt (a.asInt?.getD 0)) b
  | .double a, .double b => .ok (doubles a b)
  | .double a, b => b.toDouble.map (doubles a)
  | a, .double b => a.toDouble.map (doubles · b)
  | a, b => .ok (ints (a.asInt?.getD 0) (b.asInt?.getD 0))

/-- The difference. -/
def sub : Number → Number → Except Failure Number :=
  join (fun a b => .int (a - b)) (fun a b => .double (a - b)) Decimal.sub?

/-- The product. -/
def mul : Number → Number → Except Failure Number :=
  join (fun a b => .int (a * b)) (fun a b => .double (a * b)) Decimal.mul?

/-- The sum. -/
def add : Number → Number → Except Failure Number :=
  join (fun a b => .int (a + b)) (fun a b => .double (a + b))
    (fun a b => a.sub? { b with negative := !b.negative })

/-- The quotient of two integers, rounded once to binary64. The integers themselves are not rounded
before they are divided, so the result is the one nearest to the exact quotient. -/
def divInt (a b : Int) : Double :=
  Double.ofQuotient ((a < 0) != (b < 0)) a.natAbs b.natAbs

/-- The quotient by a number that is not zero. Two integers whose quotient is beyond the range of
binary64 fail; a quotient that involves a binary64 number is infinite there. -/
def div (x y : Number) : Except Failure Number := do
  let q ← join (fun a b => .double (divInt a b)) (fun a b => .double (a / b)) Decimal.div? x y
  match q, x.asInt?, y.asInt? with
  | .double (.infinite _), some _, some _ => .error .tooLarge
  | q, _, _ => .ok q

/-- The value rounded to decimal places; a half goes to the even neighbour. An integer has no places
and is left as it is; a decimal fails if the result would need more than 28 digits. -/
def roundPlaces (places : Nat) : Number → Except Failure Number
  | .double x => .ok (.double (x.roundPlaces places))
  | .decimal d => (d.quantize? places).elim (.error .tooPrecise) (.ok ∘ .decimal)
  | x => .ok x

end Number

end PropertyMarket
