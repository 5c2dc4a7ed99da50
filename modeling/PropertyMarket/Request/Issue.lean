import PropertyMarket.Value.Display

/-!
# Issues of a request

A request is checked as a whole: every part that does not fit is reported with the place where
it stands and the reason.

## Main definitions

* `Issue.Step`, `Issue` — a place in a request, and what is wrong there
* `Issue.Cause.code`, `Issue.Cause.message` — the reason as a word and as a sentence

## Implementation notes

A place is a list of steps from the whole to the part, and it is built from the inside out: whoever
reads a part knows nothing of where it stands, and each level around it adds its own step. The
reason is data, so the theorems say which reason it is, and its two texts are computed where a
report is written.
-/

namespace PropertyMarket

/-- A step from a value to one of its parts: into a field, or into an item. -/
inductive Issue.Step where
  | key (name : String)
  | index (position : Nat)
  deriving DecidableEq, Repr

/-- Why a value does not fit. Where the message quotes a bound or words, the reason holds them. -/
inductive Issue.Cause where
  | missing
  | notText
  | notInt
  | fractional
  | unreadableInt
  | oversizedInt
  | notNumber
  | unreadableNumber
  | notFinite
  | notList
  | notRecord
  | notModel (model : String)
  | notLiteral (words : List String)
  | notMember (words : List String)
  | below (bound : Int)
  | above (bound : Int)
  | tooShort (least actual : Nat)
  | tooLong (most actual : Nat)
  | untagged (tag : String)
  | unknownTag (tag shown : String) (words : List String)
  | notTagged
  | refused (reason : String)
  deriving DecidableEq, Repr

/-- What is wrong with a value, and where it stands. The place is the list of steps from the outside
in. -/
structure Issue where
  place : List Issue.Step
  cause : Issue.Cause
  deriving DecidableEq, Repr

namespace Issue

/-- Words in quotes with commas between them, and a conjunction before the last: how a message lists
what would have fitted. -/
def alternatives (words : List String) : String :=
  let quoted := words.map fun w => "'" ++ w ++ "'"
  match quoted.reverse with
  | [] => ""
  | [w] => w
  | last :: others => ", ".intercalate others.reverse ++ " or " ++ last

/-- A number of list items. -/
def itemCount (n : Nat) : String :=
  intText n ++ (if n = 1 then " item" else " items")

namespace Cause

/-- The reason as one word, by which a program tells it from others. -/
def code : Cause → String
  | missing => "missing"
  | notText => "string_type"
  | notInt => "int_type"
  | fractional => "int_from_float"
  | unreadableInt => "int_parsing"
  | oversizedInt => "int_parsing_size"
  | notNumber => "float_type"
  | unreadableNumber => "float_parsing"
  | notFinite => "finite_number"
  | notList => "list_type"
  | notRecord => "dict_type"
  | notModel _ => "model_type"
  | notLiteral _ => "literal_error"
  | notMember _ => "enum"
  | below _ => "greater_than_equal"
  | above _ => "less_than_equal"
  | tooShort .. => "too_short"
  | tooLong .. => "too_long"
  | untagged _ => "union_tag_not_found"
  | unknownTag .. => "union_tag_invalid"
  | notTagged => "model_attributes_type"
  | refused _ => "value_error"

/-- The reason as a sentence, for whoever sent the request. -/
def message : Cause → String
  | missing => "Field required"
  | notText => "Input should be a valid string"
  | notInt => "Input should be a valid integer"
  | fractional => "Input should be a valid integer, got a number with a fractional part"
  | unreadableInt => "Input should be a valid integer, unable to parse string as an integer"
  | oversizedInt => "Unable to parse input string as an integer, exceeded maximum size"
  | notNumber => "Input should be a valid number"
  | unreadableNumber => "Input should be a valid number, unable to parse string as a number"
  | notFinite => "Input should be a finite number"
  | notList => "Input should be a valid list"
  | notRecord => "Input should be a valid dictionary"
  | notModel model => "Input should be a valid dictionary or instance of " ++ model
  | notLiteral words | notMember words => "Input should be " ++ alternatives words
  | below bound => "Input should be greater than or equal to " ++ intText bound
  | above bound => "Input should be less than or equal to " ++ intText bound
  | tooShort least actual =>
    "List should have at least " ++ itemCount least ++ " after validation, not " ++ intText actual
  | tooLong most actual =>
    "List should have at most " ++ itemCount most ++ " after validation, not " ++ intText actual
  | untagged tag => "Unable to extract tag using discriminator '" ++ tag ++ "'"
  | unknownTag tag shown words =>
    "Input tag '" ++ shown ++ "' found using '" ++ tag ++
      "' does not match any of the expected tags: " ++
      ", ".intercalate (words.map fun w => "'" ++ w ++ "'")
  | notTagged => "Input should be a valid dictionary or object to extract fields from"
  | refused reason => "Value error, " ++ reason

end Cause

/-- A step as text. -/
def Step.text : Step → String
  | .key name => name
  | .index position => intText position

/-- The issue on one line: its place with points between the steps, and the reason. An item has its
position for a step. -/
def line (issue : Issue) : String :=
  ".".intercalate (issue.place.map Step.text) ++ ": " ++ issue.cause.message

/-- The issue as seen from one step further out. Only the place changes. -/
def under (step : Step) (issue : Issue) : Issue := ⟨step :: issue.place, issue.cause⟩

end Issue

end PropertyMarket
