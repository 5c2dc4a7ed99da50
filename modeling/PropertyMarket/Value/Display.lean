import PropertyMarket.Text.Quoted
import PropertyMarket.Value

/-!
# Values inside messages

A message shows a value as a literal: texts in quotes, null as `None`, truth values capitalised,
lists in brackets and records in braces.

## Main definitions

* `Value.literal` — a value as a literal
* `Value.display` — the same, but a text or decimal as it is

## Implementation notes

Two readers see these texts: the one who sent a request, in the message of its fault, and the one
who looks at what was logged. Neither reads them back, so nothing is proved about them beyond what
the messages need. Numbers are written as everywhere else in this library, so that a bound in a
message is spelt like the bound in a statement.
-/

namespace PropertyMarket

namespace Value

mutual

/-- A value as a literal. It recurses through lists and records, whose items and fields are
separated by a comma and a blank. -/
def literal : Value → String
  | .null => "None"
  | .bool b => if b then "True" else "False"
  | .int n => intText n
  | .double x => x.toText
  | .decimal d => "Decimal('" ++ d.toText ++ "')"
  | .text s => Text.quoted s
  | .list items => "[" ++ ", ".intercalate (literals items) ++ "]"
  | .record fields => "\x7b" ++ ", ".intercalate (literalFields fields) ++ "\x7d"

/-- Each item as a literal. -/
def literals : List Value → List String
  | [] => []
  | x :: xs => literal x :: literals xs

/-- Each field as a literal name and a literal value, a colon between the two. -/
def literalFields : Record → List String
  | [] => []
  | (name, x) :: xs => (Text.quoted name ++ ": " ++ literal x) :: literalFields xs

end

/-- A value as running text: a text and a decimal without quotes, anything else as its literal. This
is the form of a value in the middle of a sentence. -/
def display : Value → String
  | .text s => s
  | .decimal d => d.toText
  | x => x.literal

end Value

end PropertyMarket
