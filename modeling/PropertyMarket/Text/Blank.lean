/-!
# Blank characters

The characters of the property `White_Space`, which readers skip around a number.

## Main definitions

* `Text.isBlank` — has the property `White_Space`
* `Text.trim` — a list of characters without the ones of a class at both ends

## Implementation notes

The property is written out as its ranges, so that the kernel can evaluate it and nothing depends on
a table of characters from elsewhere. `trim` takes the class as a parameter and knows nothing of it.
-/

namespace PropertyMarket

namespace Text

/-- Has the property `White_Space`: some of the controls, the space and its variants of other
widths, and the separators of lines and of paragraphs. -/
def isBlank (c : Char) : Bool :=
  let n := c.toNat
  (9 ≤ n && n ≤ 13) || n == 0x20 || n == 0x85 || n == 0xa0 || n == 0x1680 ||
    (0x2000 ≤ n && n ≤ 0x200a) || n == 0x2028 || n == 0x2029 || n == 0x202f || n == 0x205f ||
    n == 0x3000

/-- Without the characters of a class at both ends. Inside the text they stay. -/
def trim (skip : Char → Bool) (cs : List Char) : List Char :=
  ((cs.dropWhile skip).reverse.dropWhile skip).reverse

end Text

end PropertyMarket
