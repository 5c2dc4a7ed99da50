import PropertyMarket.Value.Order

/-!
# Pages

How many rows a query returns, and how many it skips.

## Main definitions

* `Paging` — the usual and the greatest number of rows
* `Paging.rows`, `Paging.skipped` — what a query gets of what it asks for
* `Paging.page` — both, of values of any kind

## Main results

* `Paging.page_ofInt?` — integers get the same either way

## Implementation notes

The page is computed twice, for integers and for values of any kind. The first form is the one that
requests use, whose numbers have been read; the second one takes numbers as they are given to the
rules themselves, where anything that can be compared with a number has a page. The main result says
that the two agree on integers, so nothing has to be proved of the second form again.
-/

namespace PropertyMarket

/-- The usual and the greatest number of rows. -/
structure Paging where
  usual : Int
  most : Int
  deriving DecidableEq, Repr

namespace Paging

/-- Fifty rows, and never more than five hundred. -/
def standard : Paging := ⟨50, 500⟩

/-- A positive number of rows is kept below the greatest one; any other is the usual one. The usual
one is not compared with the greatest. -/
def rows (p : Paging) (limit : Option Int) : Int :=
  match limit with
  | some n => if 0 < n then min n p.most else p.usual
  | none => p.usual

/-- No less than no row is skipped: a negative offset is none. -/
def skipped (offset : Option Int) : Int := max (offset.getD 0) 0

/-! ### Values of any kind

The same rules for numbers of any kind. What counts as false is not given, and comparing fails where
the order of values does; the order of the two computations decides which failure is reported. -/

/-- A value in place of another one, unless it counts as false. A zero therefore asks for
nothing. -/
def override (given standard : Value) : Value := if given.truthy then given else standard

/-- The rows that are returned of a number of any kind, which keeps its kind. A limit that counts as
false is none, and any other has to be comparable with numbers. -/
def rowsOf (usual most limit : Value) : Except Fault Value := do
  let positive ← if limit.truthy then Value.isBefore false (.int 0) limit else .ok false
  if positive then Value.prefer false limit most else .ok usual

/-- The rows that are skipped of a number of any kind. -/
def skippedOf (offset : Value) : Except Fault Value :=
  Value.prefer true (override offset (.int 0)) (.int 0)

/-- The rows that are returned and the rows that are skipped. A usual or greatest number that
counts as false is not given. -/
def page (usual most limit offset : Value) : Except Fault (Value × Value) := do
  let usual := override usual (.int standard.usual)
  let most := override most (.int standard.most)
  return (← rowsOf usual most limit, ← skippedOf offset)

theorem isBefore_int (m n : Int) :
    Value.isBefore false (.int m) (.int n) = .ok (decide (m < n)) := by
  rw [← Number.lt_int]
  rfl

theorem override_int {n : Int} (h : n ≠ 0) (standard : Value) :
    override (.int n) standard = .int n := by
  simp [override, Value.truthy, h]

/-- The lesser one of two integers. -/
theorem prefer_false_int (m n : Int) :
    Value.prefer false (.int m) (.int n) = .ok (.int (min m n)) := by
  by_cases h : n < m <;>
    simp [Value.prefer, isBefore_int, bind, Except.bind, pure, Except.pure, h] <;> omega

/-- The greater one of two integers. -/
theorem prefer_true_int (m n : Int) :
    Value.prefer true (.int m) (.int n) = .ok (.int (max m n)) := by
  by_cases h : m < n <;>
    simp [Value.prefer, isBefore_int, bind, Except.bind, pure, Except.pure, h] <;> omega

theorem rowsOf_ofInt? (p : Paging) (limit : Option Int) :
    rowsOf (.int p.usual) (.int p.most) (.ofInt? limit) = .ok (.int (p.rows limit)) := by
  match limit with
  | none => rfl
  | some n =>
    by_cases zero : n = 0
    · subst zero
      rfl
    · by_cases positive : 0 < n <;>
        simp [rowsOf, Value.ofInt?, Value.truthy, zero, isBefore_int, prefer_false_int, bind,
          Except.bind, rows, positive]

theorem skippedOf_ofInt? (offset : Option Int) :
    skippedOf (.ofInt? offset) = .ok (.int (skipped offset)) := by
  have same : override (Value.ofInt? offset) (.int 0) = .int (offset.getD 0) := by
    match offset with
    | none => rfl
    | some n => by_cases zero : n = 0 <;> simp [override, Value.ofInt?, Value.truthy, zero]
  rw [skippedOf, same, prefer_true_int, skipped]

/-- Integers get the same page either way. -/
theorem page_ofInt? {p : Paging} (usual : p.usual ≠ 0) (most : p.most ≠ 0)
    (limit offset : Option Int) :
    page (.int p.usual) (.int p.most) (.ofInt? limit) (.ofInt? offset) =
      .ok (.int (p.rows limit), .int (skipped offset)) := by
  rw [page, override_int usual, override_int most, rowsOf_ofInt?, skippedOf_ofInt?]
  rfl

end Paging

end PropertyMarket
