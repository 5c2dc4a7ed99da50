import PropertyMarket.Fault

/-!
# The order of values

Values at hand are compared where they have an order, and refused where they have none.

## Main definitions

* `Value.isBefore` — is one value less than another?
* `Value.extreme` — the least or the greatest of some values

## Implementation notes

`Value.before?` may have no answer, and here the missing answer becomes a fault: rows whose values
cannot be compared end the whole computation and are not skipped. The values are compared in the
order in which they stand, so with several that cannot be compared the first such pair is the one
that is reported.
-/

namespace PropertyMarket

namespace Value

/-- Is the first value less than the second, or, if ties count, the same? Two values without an
order are a fault. -/
def isBefore (ties : Bool) (x y : Value) : Except Fault Bool :=
  (before? ties x y).mapError Fault.ofArithmetic

/-- Of two values the greater one, or the lesser one; the first one if there is a tie. Ties matter
because equal numbers of different kinds are different values. -/
def prefer (greater : Bool) (kept next : Value) : Except Fault Value := do
  let better ← if greater then isBefore false kept next else isBefore false next kept
  return if better then next else kept

/-- The greatest value, or the least one; there has to be a value. Of several that are equal the
first one is taken, whatever their kinds. -/
def extreme (greater : Bool) : List Value → Except Fault Value
  | [] => .error (.unusable .noGreatest)
  | v :: vs => vs.foldlM (prefer greater) v

end Value

end PropertyMarket
