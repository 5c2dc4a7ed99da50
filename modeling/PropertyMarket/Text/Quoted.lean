import PropertyMarket.Number.Rounding
import PropertyMarket.Text.Printable

/-!
# Quoted text

Text shown inside a message stands in quotes, with the quote, the backslash and every
unprintable character escaped.

## Main definitions

* `Text.quoteOf` — single quotes, or double ones for a text with single quotes only
* `Text.quoted` — the text in its quotes
* `Text.hex` — hexadecimal digits of a fixed least width

## Implementation notes

The quotes are chosen for the whole text before its characters are escaped, because the choice
decides which of the two quotes has to be escaped. Printable characters beyond ASCII are shown as
they are; `Text.isPrintable` says which they are.
-/

namespace PropertyMarket

namespace Text

/-- Lower-case hexadecimal digits, at least `width` of them. -/
def hex (width n : Nat) : List Char :=
  let digits := Nat.toDigits 16 n
  List.replicate (width - digits.length) '0' ++ digits

/-- A text with a single quote and no double quote stands in double quotes; any other in single
ones. So a quote is escaped only where the text has both. -/
def quoteOf (cs : List Char) : Char :=
  if cs.contains '\'' && !cs.contains '"' then '"' else '\''

/-- One character between quotes: the quote, the backslash and unprintable characters are
escaped, by name if they have one, else by number in two, four or eight digits. -/
def escape (quote c : Char) : List Char :=
  if c = quote ∨ c = '\\' then ['\\', c]
  else if c = '\n' then ['\\', 'n']
  else if c = '\r' then ['\\', 'r']
  else if c = '\t' then ['\\', 't']
  else if isPrintable c then [c]
  else if c.toNat < 0x100 then '\\' :: 'x' :: hex 2 c.toNat
  else if c.toNat < 0x10000 then '\\' :: 'u' :: hex 4 c.toNat
  else '\\' :: 'U' :: hex 8 c.toNat

/-- The text in quotes, each of its characters escaped if it has to be. -/
def quoted (s : String) : String :=
  let cs := s.toList
  let quote := quoteOf cs
  String.ofList (quote :: (cs.flatMap (escape quote) ++ [quote]))

end Text

end PropertyMarket
