import PropertyMarket.Legend.Bucket

/-!
# Labels of buckets

A bucket is labelled by its bounds. A whole number is written in groups of three digits; any
other number is rounded to three places, and zeros at the end of the places are dropped.

## Main definitions

* `Numeral.grouped` — digits with a comma between groups of three
* `Numeral.fixedThousandths` — a rational with three places
* `Numeral.thousandths` — the same without the zeros and the point at its end
* `Number.label` — a number in a label
* `Range.label` — the label of a bucket

## Implementation notes

What is dropped is dropped from the end of the whole text: first zeros, then points. It is the point
that keeps the zeros of the whole part, so a number without places would lose some of them. There is
none: all three places are written before anything is dropped.
-/

namespace PropertyMarket

namespace Numeral

/-! ### Groups of digits

Digits are grouped from the end of the number, so the grouping recurses over the reversed digits. A
group is closed only if another digit follows it. -/

/-- Digits, the last one first, with a comma after each group of three that others follow. -/
def groupReversed : List Char → List Char
  | a :: b :: c :: d :: rest => a :: b :: c :: ',' :: groupReversed (d :: rest)
  | cs => cs

/-- The digits of a number with a comma between groups of three; the first group may be shorter. -/
def grouped (n : Nat) : List Char := (groupReversed (digitChars n).reverse).reverse

/-- An integer in groups of three digits. -/
def groupedInt (n : Int) : String :=
  String.ofList ((if n < 0 then ['-'] else []) ++ grouped n.natAbs)

/-! ### Places

A number that is not whole has three places to begin with. It is rounded as an exact rational, so
the tie is that of its value and not of its digits, and what is dropped afterwards changes nothing
of the value that is written. -/

/-- Characters without those at their end that are a given one. -/
def dropEnd (c : Char) (cs : List Char) : List Char := (cs.reverse.dropWhile (· = c)).reverse

/-- A number of thousandths below one as three places. -/
def fixedPlaces (n : Nat) : List Char := padLeft 3 (digitChars n)

/-- The rational `num / den` with three places, a half rounded to the even neighbour. A negative
number keeps its sign even where it is rounded to zero, and rounding can carry into the whole
part. -/
def fixedThousandths (num : Int) (den : Nat) : List Char :=
  let units := roundQuotient (num.natAbs * 1000) den
  (if num < 0 then ['-'] else []) ++ grouped (units / 1000) ++ '.' :: fixedPlaces (units % 1000)

/-- The rational `num / den` to three places, less the zeros at the end, and less the point if
nothing is left behind it. -/
def thousandths (num : Int) (den : Nat) : String :=
  String.ofList (dropEnd '.' (dropEnd '0' (fixedThousandths num den)))

/-- A rational in a label: a whole one in groups of digits without places, any other one to three
places. -/
def ofRat (x : Rat) : String :=
  if x.den = 1 then groupedInt x.num else thousandths x.num x.den

end Numeral

/-! ### Numbers and bounds

A bound is a number of any kind, or a text that denotes a whole number. The label of a bucket has
four forms, one for each way in which its bounds can be missing. -/

/-- A number in a label. It counts as whole if the nearest binary64 number is, and is then written
without its places. An infinity and a NaN are written as words. -/
def Number.label (x : Number) : Except Fault String := do
  let nearest ← x.toDouble.mapError Fault.ofArithmetic
  match x.quotient?, nearest.toInt? with
  | some (num, den), some _ => return Numeral.groupedInt (num.tdiv den)
  | some (num, den), none => return Numeral.thousandths num den
  | none, _ => return nearest.toText

/-- A value in a label, which has to be a number, or a text that denotes a whole one. -/
def Value.label : Value → Except Fault String
  | .text s => do
    match ← Numeral.requireWhole? s with
    | some n => return Numeral.groupedInt n
    | none => .error (.unusable .noPlaces)
  | value => do (← value.requireNumber).label

namespace Range

/-- The label of a bucket whose bounds are written by `text`: both bounds, the one that there is, or
that there are no data. -/
def label {β : Type} (text : β → Except Fault String) (r : Range β) : Except Fault String :=
  match r.lower, r.upper with
  | none, none => .ok "No data"
  | none, some upper => (text upper).map ("≤ " ++ ·)
  | some lower, none => (text lower).map ("> " ++ ·)
  | some lower, some upper => do return (← text lower) ++ " - " ++ (← text upper)

end Range

end PropertyMarket
