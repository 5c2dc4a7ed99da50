import Mathlib.Algebra.Order.BigOperators.Group.List
import Mathlib.Data.String.Basic
import PropertyMarket.Proofs.Buckets
import PropertyMarket.Proofs.Nearest
import PropertyMarket.Proofs.Outcome
import PropertyMarket.Proofs.Quantile
import PropertyMarket.Statement

/-!
# What the store computes with

The store computes with null, truth values, texts and numbers. A number has a kind besides its
value: integers are divided without a remainder, exact decimals exactly, and what comes out of
numbers in double precision is rounded to double precision. Null is passed on by every operation,
and a comparison with it is neither true nor false.

How numbers are rounded from one kind to another, and how texts are matched with patterns, is
left open: it is what a `Dialect` says. Results that hold of every dialect do not depend on it.

## Main definitions

* `Cell`, `Cell.ofValue` — what the store computes with, and the cell that a value is stored as
* `Truth` — the outcome of a comparison
* `Dialect` — the conversions between kinds of numbers
* `Dialect.test`, `Dialect.arithmetic`, `Dialect.cast`, `Cell.round` — operations on cells
* `Dialect.aggregate`, `Dialect.percentile`, `Dialect.slope` — operations on the cells of a group

## Implementation notes

A number in double precision that is compared with an exact one is a bound value: a column is
cast before it is compared with such a value, and the value is sent as a decimal. Integers have no
limit here, and numbers in double precision are summed exactly before the sum is rounded.

The aggregates are folds and sums over the cells of a group, so a group that is a list of numbers of
one kind is where they simplify. Lemmas about them are stated for `values.map (Cell.number kind)`,
and whoever needs them shows that the cells which are not null are of that form.
-/

namespace PropertyMarket

/-- Why the store refuses to compute something. What is refused is refused for all rows at once: a
statement that computes a refused term for one group has no result at all. -/
inductive Refusal where
  | unknownColumn (name : String)
  | mistyped
  | divisionByZero
  | outOfRange
  deriving DecidableEq, Repr

/-! ### Truth values

A comparison with null is unknown, and so is a condition that depends on it. A row is kept only if
its condition is true, so the laws below are about when a condition is true; false and unknown drop
a row alike. -/

/-- The outcome of a comparison, which is unknown if it is one with null. A row is selected if its
conditions are true; neither false nor unknown is enough. -/
inductive Truth where
  | no
  | unknown
  | yes
  deriving DecidableEq, Repr

namespace Truth

def ofBool (b : Bool) : Truth := if b then .yes else .no

/-- Both hold. -/
def and : Truth → Truth → Truth
  | .yes, .yes => .yes
  | .no, _ | _, .no => .no
  | _, _ => .unknown

/-- One of two holds. Like `Truth.and` it does not ask for what cannot matter: a condition that
holds decides the disjunction, whatever the other one is. -/
def or : Truth → Truth → Truth
  | .no, .no => .no
  | .yes, _ | _, .yes => .yes
  | _, _ => .unknown

@[simp] theorem ofBool_eq_yes {b : Bool} : ofBool b = .yes ↔ b = true := by
  cases b <;> simp [ofBool]

theorem ofBool_and (a b : Bool) : (ofBool a).and (ofBool b) = ofBool (a && b) := by
  cases a <;> cases b <;> rfl

theorem and_eq_yes_iff {t u : Truth} : t.and u = .yes ↔ t = .yes ∧ u = .yes := by
  cases t <;> cases u <;> decide

theorem or_eq_yes_iff {t u : Truth} : t.or u = .yes ↔ t = .yes ∨ u = .yes := by
  cases t <;> cases u <;> decide

/-- One of some holds. -/
theorem foldr_or_eq_yes_iff {truths : List Truth} :
    truths.foldr or .no = .yes ↔ .yes ∈ truths := by
  induction truths with
  | nil => decide
  | cons t truths ih => rw [List.foldr_cons, or_eq_yes_iff, ih, List.mem_cons, eq_comm]

end Truth

/-! ### Cells

A column that is declared as an integer, as an exact decimal or as a number in double precision
holds numbers of one kind, and the kind decides how the store computes with them. Numbers themselves
are rational, whatever their kind is. -/

/-- The kind of a number. -/
inductive Cell.Kind where
  | integer
  | exact
  | double
  deriving DecidableEq, Repr

/-- The kind in which two numbers are joined. Double precision prevails over exact numbers, and
these over integers, so that only two integers are divided without a remainder. -/
def Cell.Kind.join : Cell.Kind → Cell.Kind → Cell.Kind
  | .double, _ | _, .double => .double
  | .exact, _ | _, .exact => .exact
  | .integer, .integer => .integer

/-- What the store computes with: null, a number of one of its kinds, a text, or a truth value. -/
inductive Cell where
  | null
  | truth (value : Bool)
  | text (value : String)
  | number (kind : Cell.Kind) (value : ℚ)
  deriving DecidableEq

namespace Cell

/-- An integer. -/
def int (n : ℤ) : Cell := .number .integer n

/-- The cell that a value is stored as, or bound as. A collection has none, nor has a binary64
number that is not finite. -/
def ofValue : Value → Except Refusal Cell
  | .null => .ok .null
  | .bool b => .ok (.truth b)
  | .text s => .ok (.text s)
  | .int n => .ok (int n)
  | .double x => x.toRat?.elim (.error .outOfRange) fun q => .ok (.number .double q)
  | .decimal d => .ok (.number .exact d.toRat)
  | .list _ | .record _ => .error .mistyped

@[simp] theorem ofValue_text (s : String) : ofValue (.text s) = .ok (.text s) := rfl

@[simp] theorem ofValue_int (n : ℤ) : ofValue (.int n) = .ok (int n) := rfl

theorem ofValue_double {x : Double} (finite : x.isFinite) :
    ofValue (.double x) = .ok (.number .double x.value) := by
  rw [ofValue, Double.toRat?_eq finite]
  rfl

/-- A number with its kind, if there is one. -/
def number? : Cell → Except Refusal (Option (Kind × ℚ))
  | .null => .ok none
  | .number kind x => .ok (some (kind, x))
  | _ => .error .mistyped

/-- The numbers among some cells, and the kind in which all of them are joined. Null is passed over,
and anything else that is not a number is refused. -/
def numbers (cells : List Cell) : Except Refusal (Kind × List ℚ) := do
  let found ← cells.mapM number?
  let numbers := found.filterMap id
  return (numbers.foldl (fun kind x => kind.join x.1) .integer, numbers.map (·.2))

/-- The cells of a group that are not null. -/
def known (cells : List Cell) : List Cell := cells.filter (· ≠ .null)

/-- Only cells that are not null have numbers. -/
theorem numbers_known (cells : List Cell) : numbers (known cells) = numbers cells := by
  have each (cell : Cell) : number? cell = if decide (cell ≠ .null) then
      (((number? cell).bind fun x => x.elim (.error .mistyped) .ok).map some) else .ok none := by
    cases cell <;> rfl
  have found (cells : List Cell) :=
    Outcome.mapM_filterMap_id fun cell (_ : cell ∈ cells) => each cell
  have same : (do return (← (known cells).mapM number?).filterMap id) =
      (do return (← cells.mapM number?).filterMap id : Except Refusal _) := by
    rw [found, found, known, List.filter_filter]
    simp only [Bool.and_self]
  calc numbers (known cells)
      = (do return (← (known cells).mapM number?).filterMap id) >>= fun numbers =>
          return (numbers.foldl (fun kind x => kind.join x.1) .integer, numbers.map (·.2)) := by
        rw [bind_assoc]
        rfl
    _ = numbers cells := by
        rw [same, bind_assoc]
        rfl

/-- A cell rounded to places, a half away from zero. Only exact numbers are rounded; a binary64
number has no such rounding in the store, and has to be cast first. -/
def round (places : ℕ) : Cell → Except Refusal Cell
  | .null => .ok .null
  | .number .double _ => .error .mistyped
  | .number _ x => .ok (.number .exact (roundAway places x))
  | _ => .error .mistyped

end Cell

/-- The slope of the line of best fit, from the sums over all points, if they differ in `x`. This is
the textbook quotient; that it is the slope of the line with the least squares is proved of it
elsewhere. -/
def regressionSlope (points : List (ℚ × ℚ)) : Option ℚ :=
  let n : ℚ := points.length
  let sum (f : ℚ × ℚ → ℚ) : ℚ := (points.map f).sum
  let spread := n * sum (fun p => p.1 * p.1) - sum (·.1) * sum (·.1)
  if spread = 0 then none
  else some ((n * sum (fun p => p.1 * p.2) - sum (·.1) * sum (·.2)) / spread)

/-! ### Dialects

Stores differ in how they round from one kind of number to another, and in how they match texts. A
dialect says what one store does, and each result names what it needs of it: most hold of every
dialect, and those about counts or ratios ask for some of its laws. -/

/-- What the store makes of a number that changes its kind, and of texts and outlines. -/
structure Dialect where
  /-- The number in double precision that is nearest to a number, unless that is out of range. -/
  toDouble : ℚ → Option ℚ
  /-- The exact number that a number in double precision is cast to. -/
  toExact : ℚ → ℚ
  /-- The exact number that a bound number in double precision is sent as. -/
  sent : ℚ → ℚ
  /-- Does the text match the pattern, whatever the case? -/
  likes : String → String → Bool
  /-- Does the outline share a point with the box of some sides? -/
  meets : Cell → List Double → Bool

namespace Comparator

/-- Does the comparison hold of two values in an order? -/
def accepts : Comparator → Ordering → Bool
  | .eq, o => o == .eq
  | .ne, o => o != .eq
  | .gt, o => o == .gt
  | .ge, o => o != .lt
  | .lt, o => o == .lt
  | .le, o => o != .gt

/-- What a comparison says of two values. The store computes with `Comparator.accepts`, which sees
no more than how the two are ordered. -/
def Relates {α : Type} [LinearOrder α] : Comparator → α → α → Prop
  | .eq, x, y => x = y
  | .ne, x, y => x ≠ y
  | .gt, x, y => y < x
  | .ge, x, y => y ≤ x
  | .lt, x, y => x < y
  | .le, x, y => x ≤ y

theorem accepts_compare {α : Type} [LinearOrder α] (c : Comparator) (x y : α) :
    c.accepts (compare x y) = true ↔ c.Relates x y := by
  obtain less | same | more := lt_trichotomy x y
  · rw [compare_lt_iff_lt.2 less]
    cases c <;> simp [accepts, Relates, less, less.le, less.ne]
  · rw [compare_eq_iff_eq.2 same]
    cases c <;> simp [accepts, Relates, same]
  · rw [compare_gt_iff_gt.2 more]
    cases c <;> simp [accepts, Relates, more, more.le, more.ne']

end Comparator

namespace Dialect

variable (d : Dialect)

/-! ### Comparisons

Two cells are compared by their order, if they have one. Null has none, so that every comparison
with it is unknown, even that of null with itself. -/

/-- Two numbers as they are compared: a bound one in double precision beside an exact one is sent
as a decimal. -/
def comparable : Cell.Kind × ℚ → Cell.Kind × ℚ → ℚ × ℚ
  | (.exact, x), (.double, y) => (x, d.sent y)
  | (.double, x), (.exact, y) => (d.sent x, y)
  | (_, x), (_, y) => (x, y)

/-- The order of two cells; there is none if one of them is null. -/
def order : Cell → Cell → Except Refusal (Option Ordering)
  | .null, _ | _, .null => .ok none
  | .truth a, .truth b => .ok (some (compare a b))
  | .text a, .text b => .ok (some (compare a b))
  | .number k x, .number l y =>
    let p := d.comparable (k, x) (l, y)
    .ok (some (compare p.1 p.2))
  | _, _ => .error .mistyped

/-- The comparison of two cells, which is unknown if one of them is null and refused if their kinds
do not go together. -/
def test (c : Comparator) (a b : Cell) : Except Refusal Truth :=
  (d.order a b).map fun
    | none => .unknown
    | some o => .ofBool (c.accepts o)

@[simp] theorem test_null_left (c : Comparator) (a : Cell) : d.test c .null a = .ok .unknown := by
  cases a <;> rfl

theorem test_int_eq (m n : ℤ) : d.test .eq (.int m) (.int n) = .ok (.ofBool (decide (m = n))) := by
  refine congrArg (fun b => Except.ok (Truth.ofBool b)) (Bool.eq_iff_iff.2 ?_)
  rw [decide_eq_true_iff]
  exact (Comparator.accepts_compare .eq (m : ℚ) n).trans Int.cast_inj

theorem test_text_eq (s t : String) :
    d.test .eq (.text s) (.text t) = .ok (.ofBool (decide (s = t))) := by
  refine congrArg (fun b => Except.ok (Truth.ofBool b)) (Bool.eq_iff_iff.2 ?_)
  rw [decide_eq_true_iff]
  exact Comparator.accepts_compare .eq s t

/-! ### Operations

The kind of the operands decides the kind of the result, and a number in double precision can be out
of range. Numbers are added without any other failure; a division can also be one by zero. -/

/-- A number in double precision. -/
def double (x : ℚ) : Except Refusal Cell :=
  (d.toDouble x).elim (.error .outOfRange) fun y => .ok (.number .double y)

/-- A number as one of a kind. -/
def ofKind : Cell.Kind → ℚ → Except Refusal Cell
  | .double, x => d.double x
  | kind, x => .ok (.number kind x)

/-- A number as an operand of an operation in a kind. -/
def operand (kind : Cell.Kind) (x : ℚ) : Except Refusal ℚ :=
  match kind with
  | .double => (d.toDouble x).elim (.error .outOfRange) .ok
  | _ => .ok x

/-- The result of an operation on two numbers of a kind. Integers are divided towards zero, all
other numbers exactly. -/
def result (operator : Arithmetic) (kind : Cell.Kind) (x y : ℚ) : Except Refusal ℚ :=
  match operator with
  | .add => .ok (x + y)
  | .sub => .ok (x - y)
  | .mul => .ok (x * y)
  | .div =>
    if y = 0 then .error .divisionByZero
    else if kind = .integer then .ok (x.num.tdiv y.num : ℤ) else .ok (x / y)

/-- The arithmetic of cells: null is passed on beside null or a number, and the result of two
numbers is of the kind in which they are joined. -/
def arithmetic (operator : Arithmetic) : Cell → Cell → Except Refusal Cell
  | .number k x, .number l y => do
    let kind := k.join l
    let x ← d.operand kind x
    let y ← d.operand kind y
    d.ofKind kind (← result operator kind x y)
  | .null, .null | .null, .number .. | .number .., .null => .ok .null
  | _, _ => .error .mistyped

theorem arithmetic_add_int (m n : ℤ) :
    d.arithmetic .add (.int m) (.int n) = .ok (.int (m + n)) := by
  rw [Cell.int, Cell.int, Cell.int, Int.cast_add]
  rfl

theorem arithmetic_sub_int (m n : ℤ) :
    d.arithmetic .sub (.int m) (.int n) = .ok (.int (m - n)) := by
  rw [Cell.int, Cell.int, Cell.int, Int.cast_sub]
  rfl

theorem arithmetic_mul_int (m n : ℤ) :
    d.arithmetic .mul (.int m) (.int n) = .ok (.int (m * n)) := by
  rw [Cell.int, Cell.int, Cell.int, Int.cast_mul]
  rfl

/-- Exact numbers are divided exactly. -/
theorem arithmetic_div_exact {x y : ℚ} (hy : y ≠ 0) :
    d.arithmetic .div (.number .exact x) (.number .exact y) = .ok (.number .exact (x / y)) := by
  have divided : result .div .exact x y = .ok (x / y) := by
    rw [result, if_neg hy, if_neg (by decide)]
  show (do d.ofKind .exact (← result .div .exact x y)) = _
  rw [divided]
  rfl

/-- A number as an exact one. -/
def exact (kind : Cell.Kind) (x : ℚ) : ℚ := if kind = .double then d.toExact x else x

/-- A cell as one of a type. Where the type has a precision, a number that needs more digits in
front of the point is out of range, after it has been rounded to the places of the type. -/
def cast : Cell → ColumnType → Except Refusal Cell
  | .null, _ => .ok .null
  | .number .double x, .integer => .ok (.number .integer (roundRat 0 x))
  | .number _ x, .integer => .ok (.number .integer (roundAway 0 x))
  | .number _ x, .float => d.double x
  | .number kind x, .number => .ok (.number .exact (d.exact kind x))
  | .number kind x, .numeric digits places =>
    let y := roundAway places (d.exact kind x)
    if |y| < 10 ^ ((digits : ℤ) - places) then .ok (.number .exact y) else .error .outOfRange
  | .text s, .varchar length => .ok (.text (String.ofList (s.toList.take length)))
  | _, _ => .error .mistyped

theorem cast_int (n : ℤ) : d.cast (.int n) .integer = .ok (.int n) := by
  have rounded : d.cast (.int n) .integer = .ok (.number .integer (roundAway 0 n)) := rfl
  rw [rounded, roundAway_intCast]
  rfl

/-! ### Groups

An aggregate passes over null, and has no result but null where nothing else is left. Sums and means
of integers and of exact numbers are exact, so they do not depend on the order of the group. -/

/-- Of two cells the greater one, or the lesser one; null only if there is nothing else. -/
def prefer (greater : Bool) (kept next : Cell) : Except Refusal Cell := do
  match ← d.order kept next with
  | some .lt => return if greater then next else kept
  | some .gt => return if greater then kept else next
  | some .eq => return kept
  | none => return if kept = .null then next else kept

/-- What is computed of the cells of a group. Null does not count, and of nothing else than null
there is only a number: all the others are null there. -/
def aggregate (function : Aggregate) (cells : List Cell) : Except Refusal Cell :=
  match function with
  | .count => .ok (.int (cells.countP (· ≠ .null)))
  | .min => cells.foldlM (d.prefer false) .null
  | .max => cells.foldlM (d.prefer true) .null
  | .sum => do
    let (kind, xs) ← Cell.numbers cells
    if xs.isEmpty then return .null else d.ofKind kind xs.sum
  | .avg => do
    let (kind, xs) ← Cell.numbers cells
    if xs.isEmpty then return .null
    else d.ofKind (kind.join .exact) (xs.sum / xs.length)

/-- The value at a fraction of the sorted values of a group, interpolated. It is in double
precision, whatever the kind of the values is. -/
def percentile (fraction : Cell) (cells : List Cell) : Except Refusal Cell := do
  let (_, xs) ← Cell.numbers cells
  match fraction with
  | .number _ f =>
    if f < 0 ∨ 1 < f then .error .outOfRange
    else if xs.isEmpty then return .null
    else d.double (interpolant (orderStatistic xs) (((xs.length - 1 : ℕ) : ℚ) * f))
  | .null => return .null
  | _ => .error .mistyped

/-- The slope of the line of best fit through points with their `y` first. A point without one of
its coordinates does not count. -/
def slope (points : List (Cell × Cell)) : Except Refusal Cell := do
  let found ← points.mapM fun p => do return (← Cell.number? p.2, ← Cell.number? p.1)
  let points := found.filterMap fun
    | (some x, some y) => some (x.2, y.2)
    | _ => none
  match regressionSlope points with
  | some s => d.double s
  | none => return .null

/-! ### Null in groups

Dropping null from a group changes nothing. So the cells of a group can be replaced by its numbers,
which is how all that follows computes aggregates. -/

theorem prefer_null (greater : Bool) (cell : Cell) : d.prefer greater .null cell = .ok cell := by
  cases cell <;> rfl

theorem prefer_null_right (greater : Bool) (cell : Cell) :
    d.prefer greater cell .null = .ok cell := by
  cases cell <;> rfl

theorem foldlM_prefer_known (greater : Bool) (kept : Cell) (cells : List Cell) :
    (Cell.known cells).foldlM (d.prefer greater) kept = cells.foldlM (d.prefer greater) kept := by
  induction cells generalizing kept with
  | nil => rfl
  | cons cell cells ih =>
    by_cases null : cell = .null
    · rw [null, List.foldlM_cons, prefer_null_right, Outcome.ok_bind, ← ih]
      rfl
    · have first : Cell.known (cell :: cells) = cell :: Cell.known cells :=
        List.filter_cons_of_pos (decide_eq_true null)
      rw [first, List.foldlM_cons, List.foldlM_cons]
      exact congrArg _ (funext ih)

/-- Null does not count, whatever is computed: it is the group without its null that decides the
aggregate. -/
theorem aggregate_known (function : Aggregate) (cells : List Cell) :
    d.aggregate function (Cell.known cells) = d.aggregate function cells := by
  cases function with
  | count => rw [aggregate, aggregate, Cell.known, List.countP_filter]; simp only [Bool.and_self]
  | sum | avg => rw [aggregate, aggregate, Cell.numbers_known]
  | min | max => exact d.foldlM_prefer_known _ _ cells

/-! ### Groups of numbers

The aggregates of a group that holds numbers of one kind, as they are computed of the list of these
numbers. A column has cells of one kind, so these are the cases that occur. -/

section Numbers

variable {d} {kind : Cell.Kind} {values : List ℚ}

theorem comparable_self (kind : Cell.Kind) (x y : ℚ) :
    d.comparable (kind, x) (kind, y) = (x, y) := by
  cases kind <;> rfl

theorem order_number (kind : Cell.Kind) (x y : ℚ) :
    d.order (.number kind x) (.number kind y) = .ok (some (Ord.compare x y)) := by
  rw [order, comparable_self]

/-- Of two numbers of a kind the better one is kept, the first one if there is a tie. Numbers that
tie are equal, so the tie does not matter for what is found. -/
theorem prefer_number (greater : Bool) (kind : Cell.Kind) (x y : ℚ) :
    d.prefer greater (.number kind x) (.number kind y) =
      .ok (.number kind (if (if greater then x < y else y < x) then y else x)) := by
  rw [prefer, order_number, Outcome.ok_bind]
  obtain less | same | more := lt_trichotomy x y
  · rw [compare_lt_iff_lt.2 less]
    cases greater <;> simp [less, less.le]
  · rw [compare_eq_iff_eq.2 same]
    cases greater <;> simp [same]
  · rw [compare_gt_iff_gt.2 more]
    cases greater <;> simp [more, more.le]

theorem foldlM_prefer (greater : Bool) (kind : Cell.Kind) (x : ℚ) (xs : List ℚ) :
    (xs.map (Cell.number kind)).foldlM (d.prefer greater) (.number kind x) =
      .ok (.number kind (xs.foldl
        (fun kept next => if (if greater then kept < next else next < kept) then next else kept)
        x)) := by
  induction xs generalizing x with
  | nil => rfl
  | cons y xs ih =>
    rw [List.map_cons, List.foldlM_cons, prefer_number, Outcome.ok_bind, ih, List.foldl_cons]

/-- The least number of a group. -/
theorem aggregate_min (kind : Cell.Kind) (values : List ℚ) :
    d.aggregate .min (values.map (Cell.number kind)) =
      .ok ((Measure.least values).elim .null (Cell.number kind)) := by
  cases values with
  | nil => rfl
  | cons x xs =>
    rw [aggregate, List.map_cons, List.foldlM_cons, prefer_null, Outcome.ok_bind, foldlM_prefer]
    simp [Measure.least, Measure.lt]

/-- The greatest number of a group. -/
theorem aggregate_max (kind : Cell.Kind) (values : List ℚ) :
    d.aggregate .max (values.map (Cell.number kind)) =
      .ok ((Measure.greatest values).elim .null (Cell.number kind)) := by
  cases values with
  | nil => rfl
  | cons x xs =>
    rw [aggregate, List.map_cons, List.foldlM_cons, prefer_null, Outcome.ok_bind, foldlM_prefer]
    simp [Measure.greatest, Measure.lt]

theorem aggregate_count (kind : Cell.Kind) (values : List ℚ) :
    d.aggregate .count (values.map (Cell.number kind)) = .ok (.int values.length) := by
  have all : ∀ c ∈ values.map (Cell.number kind), decide (c ≠ Cell.null) = true := by
    intro c hc
    obtain ⟨x, -, rfl⟩ := List.mem_map.1 hc
    simp
  rw [aggregate, List.countP_eq_length.2 all, List.length_map]

/-- The numbers of a group of numbers, with their kind if there are any. -/
theorem numbers_map (kind : Cell.Kind) (h : values ≠ []) :
    Cell.numbers (values.map (Cell.number kind)) = .ok (kind, values) := by
  have found : (values.map (Cell.number kind)).mapM Cell.number? =
      .ok (values.map fun x => some (kind, x)) := by
    rw [List.mapM_map]
    exact Outcome.mapM_eq_ok_map fun _ _ => rfl
  have kept : (values.map fun x => some (kind, x)).filterMap id =
      values.map fun x => (kind, x) := by
    rw [List.filterMap_map, ← List.filterMap_eq_map]
    rfl
  have joined : (values.map fun x => (kind, x)).foldl (fun k x => k.join x.1) .integer = kind := by
    obtain ⟨x, xs, rfl⟩ := List.exists_cons_of_ne_nil h
    have first : Cell.Kind.join .integer kind = kind := by cases kind <;> rfl
    have again : kind.join kind = kind := by cases kind <;> rfl
    rw [List.foldl_map, List.foldl_cons, first]
    exact List.foldl_fixed' (fun _ => again) xs
  rw [Cell.numbers, found, Outcome.ok_bind, kept]
  dsimp only
  rw [joined, List.map_map]
  exact congrArg (fun xs => Except.ok (kind, xs)) (List.map_id _)

/-- The sum of a group of exact numbers. -/
theorem aggregate_sum (exact : kind ≠ .double) (values : List ℚ) :
    d.aggregate .sum (values.map (Cell.number kind)) =
      .ok (if values = [] then .null else .number kind values.sum) := by
  by_cases h : values = []
  · rw [h, if_pos rfl]
    rfl
  · rw [aggregate, numbers_map kind h, Outcome.ok_bind, if_neg h]
    simp only [List.isEmpty_eq_false_iff.2 h]
    cases kind <;> first | rfl | exact absurd rfl exact

/-- The mean of a group of exact numbers, which are divided exactly even if they are integers. -/
theorem aggregate_avg (exact : kind ≠ .double) (values : List ℚ) :
    d.aggregate .avg (values.map (Cell.number kind)) =
      .ok (if values = [] then .null else .number .exact (values.sum / values.length)) := by
  by_cases h : values = []
  · rw [h, if_pos rfl]
    rfl
  · rw [aggregate, numbers_map kind h, Outcome.ok_bind, if_neg h]
    simp only [List.isEmpty_eq_false_iff.2 h]
    cases kind <;> first | rfl | exact absurd rfl exact

/-- The percentile of a group of numbers, which lies among them. -/
theorem percentile_number (d : Dialect) (fraction kind : Cell.Kind) {f : ℚ} (h : values ≠ [])
    (nonneg : 0 ≤ f) (le_one : f ≤ 1) :
    ∃ x, d.percentile (.number fraction f) (values.map (Cell.number kind)) = d.double x ∧
      quantile values f = some x := by
  have found := numbers_map kind h
  refine ⟨_, ?_, quantile_eq h nonneg le_one⟩
  have inside : ¬(f < 0 ∨ 1 < f) := by
    rintro (low | high)
    · exact absurd nonneg (not_le.2 low)
    · exact absurd le_one (not_le.2 high)
  have some_value : values.isEmpty = false := List.isEmpty_eq_false_iff.2 h
  rw [percentile, found, Outcome.ok_bind]
  simp only [if_neg inside, some_value]
  rfl

end Numbers

end Dialect

end PropertyMarket
