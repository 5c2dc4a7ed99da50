import PropertyMarket.Number.Shortest

/-!
# Written numbers

How numbers are written: whole numbers in decimal digits, binary64 numbers with the fewest
digits that read back.

## Main definitions

* `Numeral.Layout` — where positional writing ends and how an exponent is written
* `Double.toText` — a binary64 number in the layout of this library, `Numeral.plain`

## Implementation notes

The shortest digits do not depend on how they are laid out, so the search for them stands in a
module of its own and this one only places the point. The bounds of positional writing are the
fields of a `Layout`; the one that is used throughout is `Numeral.plain`.
-/

namespace PropertyMarket

/-- An integer in decimal digits, with a minus in front of a negative one and without grouping. -/
def intText (n : Int) : String :=
  let digits := String.ofList (digitChars n.natAbs)
  if n < 0 then "-" ++ digits else digits

namespace Numeral

/-- The choices that a written number leaves open: where positional writing ends in either
direction, and how many digits an exponent has at least. -/
structure Layout where
  /-- The least point of a number written positionally. -/
  minPoint : Int
  /-- The greatest point of a number written positionally. -/
  maxPoint : Int
  /-- The fewest digits of an exponent. -/
  exponentDigits : Nat
  deriving DecidableEq, Repr

/-- Numbers from `0.0001` up to, not including, `10 ^ 16` are positional; an exponent has a
sign and at least two digits. -/
def plain : Layout := ⟨-3, 16, 2⟩

/-- Pads with zeros at the front. -/
def padLeft (width : Nat) (cs : List Char) : List Char :=
  List.replicate (width - cs.length) '0' ++ cs

/-- Digits with their point between two of them; a whole number keeps one zero after it, by which a
reader sees that it is no integer. -/
def positional (digits : List Char) (point : Int) : List Char :=
  if point ≤ 0 then '0' :: '.' :: List.replicate (-point).toNat '0' ++ digits
  else if digits.length ≤ point then
    digits ++ List.replicate (point.toNat - digits.length) '0' ++ ['.', '0']
  else digits.take point.toNat ++ '.' :: digits.drop point.toNat

/-- One digit, the others after a point, and the exponent. The point is left out when there is one
digit only. -/
def scientific (layout : Layout) (digits : List Char) (point : Int) : List Char :=
  let exponent := point - 1
  let mantissa := match digits with
    | d :: rest@(_ :: _) => d :: '.' :: rest
    | ds => ds
  mantissa ++ 'e' :: (if exponent < 0 then '-' else '+') ::
    padLeft layout.exponentDigits (digitChars exponent.natAbs)

/-- Positive digits in a layout: positional if the point lies between the two bounds, and with an
exponent otherwise. -/
def write (layout : Layout) (d : Double.Digits) : List Char :=
  let digits := digitChars d.digits
  if layout.minPoint ≤ d.point ∧ d.point ≤ layout.maxPoint then positional digits d.point
  else scientific layout digits d.point

end Numeral

/-- A binary64 number with the fewest digits that read back. Zero is written with its sign too, and
the numbers that are not finite are written as words. -/
def Double.toText : Double → String
  | .nan => "nan"
  | .infinite s => if s then "-inf" else "inf"
  | .finite s m e =>
    let body := if m = 0 then "0.0" else String.ofList (Numeral.write Numeral.plain (shortest m e))
    if s then "-" ++ body else body

end PropertyMarket
