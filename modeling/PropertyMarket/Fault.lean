import PropertyMarket.Catalog.Metric
import PropertyMarket.Number.Reader
import PropertyMarket.Request.Issue

/-!
# Why an answer fails

Failures are causes. A refused query says which part is at fault and is reported with a code, a
category and, where there is one, a suggestion; the other failures are a request that does not
fit, a reply that cannot be used, a value that cannot be used, and values that do not go together.

## Main definitions

* `QueryError` — why a query is refused, or its store fails
* `QueryError.Report` — a refusal as it is reported: headline, text for users, record
* `Unusable` — why a value cannot be used although it is of a kind that is right
* `Fault` — every way in which an answer can fail

## Implementation notes

A failure is kept as its cause, with the data that its message needs, and the message is computed
from it. So the theorems speak of causes, and what a caller is told is a function of them that can
be read in one place. The order of the checks that lead to a fault is not decided here: it is the
order of the definitions that raise it, the first one found being the one that is reported.
-/

namespace PropertyMarket

/-! ### Reports

A refusal is reported under a kind, which has a code and a category, with a message and, where they
help, the field, a suggestion and details. The same report is shown in three ways: in one line, in
words for users, and as a record. -/

/-- The kinds of refusals, by what the caller can do about them. -/
inductive QueryError.Kind where
  | general
  | unknownField
  | unsupportedOperator
  | invalidOperatorValue
  | invalidParameter
  | unsupportedCombination
  | dataAccess
  deriving DecidableEq, Repr

namespace QueryError.Kind

/-- The name under which a kind is reported; no two kinds share one. -/
def name : Kind → String
  | general => "QueryError"
  | unknownField => "UnknownField"
  | unsupportedOperator => "UnsupportedOperator"
  | invalidOperatorValue => "InvalidOperatorValue"
  | invalidParameter => "InvalidParameter"
  | unsupportedCombination => "UnsupportedCombination"
  | dataAccess => "DataAccessError"

/-- All kinds. -/
def all : List Kind :=
  [general, unknownField, unsupportedOperator, invalidOperatorValue, invalidParameter,
    unsupportedCombination, dataAccess]

/-- The kind of a name. -/
def ofName? (s : String) : Option Kind := all.find? fun k => k.name == s

/-- The code of a kind. Two kinds share one, so a code does not lead back to its kind. -/
def code : Kind → String
  | general | invalidOperatorValue => "ERR_002"
  | unknownField => "ERR_010"
  | unsupportedOperator => "ERR_012"
  | invalidParameter => "ERR_016"
  | unsupportedCombination => "ERR_021"
  | dataAccess => "ERR_031"

/-- What a kind of refusal is about: the shape of a value, safety, meaning, or the store. -/
def category : Kind → String
  | general | invalidOperatorValue | invalidParameter => "schema"
  | unknownField | unsupportedOperator => "security"
  | unsupportedCombination => "semantic"
  | dataAccess => "resource"

end QueryError.Kind

/-- A refusal as it is reported. A field, a suggestion or details that count as false mean that
there are none. -/
structure QueryError.Report where
  kind : QueryError.Kind
  message : Value
  field : Value := .null
  suggestion : Value := .null
  details : Value := .null
  deriving Repr

namespace QueryError.Report

/-- The message behind the field that it is about, if it is about one. -/
def located (r : Report) : String :=
  if r.field.truthy then r.field.display ++ ": " ++ r.message.display else r.message.display

/-- The code and the located message, in one line. This is the message of the fault. -/
def headline (r : Report) : String := "[" ++ r.kind.code ++ "] " ++ r.located

/-- The located message and the suggestion; a message without either is left as it is, so that it
need not even be a text. -/
def userMessage (r : Report) : Value :=
  if r.suggestion.truthy then .text (r.located ++ " (" ++ r.suggestion.display ++ ")")
  else if r.field.truthy then .text r.located
  else r.message

/-- The report as a record, without what there is none of. The four fields that every report has
come first. -/
def toRecord (r : Report) : Record :=
  let part (name : String) (value : Value) : Record := if value.truthy then [(name, value)] else []
  [("error", .text r.kind.name), ("code", .text r.kind.code), ("message", r.message),
    ("category", .text r.kind.category)] ++
  part "field" r.field ++ part "suggestion" r.suggestion ++ part "details" r.details

end QueryError.Report

/-! ### Causes

Each constructor is one reason to refuse a query, with what was given and, where there is a
vocabulary, the words of it. So the suggestion in a report is computed from what the check compared
with, and not written down beside it. -/

/-- Why a query is refused, or its store fails. All but the last one are found before anything is
sent. -/
inductive QueryError where
  /-- No field of the family has the name. -/
  | unknownField (name : Value) (family : Family)
  /-- The relation does not hold the field. -/
  | missingColumn (field : String) (family : Family) (relation : String)
  /-- The field may not be grouped by. -/
  | notGroupable (field : String) (groupable : List String)
  /-- A legend is made of a metric, which the field is not. -/
  | notMetric (field : String)
  | unknownOperator (operator field : String) (known : List String)
  | unknownAggregate (aggregate field : String) (known : List String)
  | unknownComputation (computation : Value)
  /-- Questions of the category have no query to run. -/
  | notExecutable (category : Category) (executable : List Category)
  | needsScalar (operator field : String) (value : Value)
  | needsPair (field : String) (value : Value)
  | needsItems (field : String) (value : Value)
  | needsPattern (field : String)
  | needsFlag (field : String)
  | needsNumber (operation field : String)
  | bucketsOutOfRange (least most : Nat) (value : Value)
  /-- A bounding box has four sides. -/
  | malformedBox
  /-- Rows without geometry cannot be matched with a bounding box. -/
  | boxNeedsGeometry
  /-- A part of a relation's name is in no vocabulary. -/
  | unknownWord (label : String) (value : Value) (words : List String)
  | noRelation (family : Family) (level : Level) (type : PropertyType) (grain : TimeGrain)
  | notYearly (relation : String)
  | notMonthly (relation : String)
  /-- The store failed. -/
  | storeFailed (message : String) (details : Record)
  deriving Repr

namespace QueryError

/-- Words with commas between them, in the order in which they are given. -/
def listed (words : List String) : String := ", ".intercalate words

/-- A suggestion of the known words: one of them would not have been refused here. -/
def useOneOf (words : List String) : Value := .text ("Use one of: " ++ listed words)

/-- A refusal as it is reported. Texts of a request appear in it as literals, in quotes where they
are texts. -/
def report : QueryError → Report
  | unknownField name family =>
    { kind := .unknownField, message := .text ("Unknown field " ++ name.literal)
      field := .text name.display
      details := .record [("family", .ofWord family)] }
  | missingColumn field family relation =>
    { kind := .unknownField, field := .text field
      message := .text ("Field " ++ Text.quoted field ++ " is not available on relation " ++
        relation)
      details := .record [("family", .ofWord family), ("relation", .text relation)] }
  | notGroupable field groupable =>
    { kind := .unknownField, field := .text field
      message := .text ("Field " ++ Text.quoted field ++ " cannot be used in group by")
      suggestion := .text ("Group by one of: " ++ listed groupable) }
  | notMetric field =>
    { kind := .unknownField, field := .text field
      message := .text ("Legend requires a metric field, got " ++ Text.quoted field) }
  | unknownOperator operator field known =>
    { kind := .unsupportedOperator, field := .text field
      message := .text ("Unsupported operator " ++ Text.quoted operator)
      suggestion := useOneOf known }
  | unknownAggregate aggregate field known =>
    { kind := .unsupportedOperator, field := .text field
      message := .text ("Unsupported aggregate " ++ Text.quoted aggregate)
      suggestion := useOneOf known }
  | unknownComputation computation =>
    { kind := .unsupportedOperator
      message := .text ("Unsupported computation " ++ computation.literal) }
  | notExecutable category executable =>
    { kind := .unsupportedOperator, field := .text "intent"
      message := .text ("Intent category " ++ Text.quoted (Vocabulary.word category) ++
        " has no executable query")
      suggestion := useOneOf (executable.map Vocabulary.word) }
  | needsScalar operator field value =>
    { kind := .invalidOperatorValue, field := .text field
      message := .text ("Operator " ++ Text.quoted operator ++ " requires a single value")
      details := .record [("value", .text value.literal)] }
  | needsPair field value =>
    { kind := .invalidOperatorValue, field := .text field
      message := .text "between requires exactly two values"
      details := .record [("value", .text value.literal)] }
  | needsItems field value =>
    { kind := .invalidOperatorValue, field := .text field
      message := .text "in requires a non-empty array of values"
      details := .record [("value", .text value.literal)] }
  | needsPattern field =>
    { kind := .invalidOperatorValue, field := .text field
      message := .text "ilike requires a pattern string" }
  | needsFlag field =>
    { kind := .invalidOperatorValue, field := .text field
      message := .text "is_null requires a boolean" }
  | needsNumber operation field =>
    { kind := .invalidOperatorValue, field := .text field
      message := .text (operation ++ " requires a numeric field") }
  | bucketsOutOfRange least most value =>
    { kind := .invalidParameter, field := .text "bucketsCount"
      message := .text ("bucketsCount must be an integer within [" ++ intText least ++ ", " ++
        intText most ++ "]")
      details := .record [("value", .text value.literal)] }
  | malformedBox =>
    { kind := .invalidParameter, field := .text "bbox"
      message := .text "bbox must be [minLng, minLat, maxLng, maxLat]" }
  | boxNeedsGeometry =>
    { kind := .invalidParameter, field := .text "bbox"
      message := .text "bbox scoping requires a spatial store" }
  | unknownWord label value words =>
    { kind := .unsupportedCombination, field := .text label
      message := .text ("Unknown " ++ label ++ " " ++ value.literal)
      suggestion := useOneOf words }
  | noRelation family level type grain =>
    { kind := .unsupportedCombination
      message := .text ("No " ++ Vocabulary.word family ++ " relation for level=" ++
        Vocabulary.word level ++ ", grain=" ++ Vocabulary.word grain)
      suggestion := .text "ISO week rollups only exist at commune level"
      details := .record [("level", .ofWord level), ("propertyType", .ofWord type),
        ("grain", .ofWord grain)] }
  | notYearly relation =>
    { kind := .unsupportedCombination
      message := .text ("Deltas are derived from a yearly rollup, got " ++ relation)
      details := .record [("relation", .text relation)] }
  | notMonthly relation =>
    { kind := .unsupportedCombination
      message := .text ("Slopes are derived from a monthly rollup, got " ++ relation)
      details := .record [("relation", .text relation)] }
  | storeFailed message details =>
    { kind := .dataAccess, message := .text message, details := .record details }

end QueryError

/-! ### Questions

What can go wrong between a question in common words and a request. The question goes with the
cause, and so does the reply if there was one. -/

/-- Why a question cannot be turned into a request. -/
inductive AssistantError.Cause where
  /-- The language model cannot be reached. -/
  | noReply (message : String)
  | emptyReply
  | notJson
  | notObject
  /-- Questions of the category are answered without arguments. -/
  | noArguments (category : Category)
  /-- The arguments in the reply do not fit. -/
  | mismatch (model : String) (issues : Nat)
  deriving DecidableEq, Repr

/-- A question that cannot be turned into a request: why, what was asked, and what came back. -/
structure AssistantError where
  cause : AssistantError.Cause
  question : String
  /-- The reply, as far as there is one. -/
  reply : String := ""
  deriving DecidableEq, Repr

/-- The message of a question that cannot be turned into a request. -/
def AssistantError.message (e : AssistantError) : String :=
  match e.cause with
  | .noReply message => "OpenAI API call failed: " ++ message
  | .emptyReply => "LLM returned empty response"
  | .notJson => "LLM returned invalid JSON"
  | .notObject => "LLM returned a JSON value that is not an object"
  | .noArguments category =>
    "Category " ++ Text.quoted (Vocabulary.word category) ++ " has no executable arguments"
  | .mismatch model issues =>
    "LLM arguments do not match " ++ model ++ ": " ++ intText issues ++ " error(s)"

/-! ### Unusable values

A value can be of the right kind and still be of no use: a text that is no number, a pair of three.
The messages here are those of the conversions themselves and are shown as they are. -/

/-- Why a value cannot be used although it is of a kind that is right. Each reason holds what its
message quotes. -/
inductive Unusable where
  /-- It names no member of a vocabulary. -/
  | notMember (value : Value) (title : String)
  /-- A text is not the number that it should be. -/
  | notNumber (text : String)
  /-- A text is a number, and not the whole number that it should be. -/
  | notWhole (text : String)
  /-- A text has more digits than are read. -/
  | oversized (digits : Nat)
  /-- A text has no places to round to. -/
  | noPlaces
  /-- A fraction lies outside the unit interval. -/
  | fractionOutOfRange (value : Value)
  /-- Nested lists are of one shape only so far. -/
  | ragged (shape : List Nat)
  /-- Lists are nested more deeply than is looked into. -/
  | overNested (most : Nat)
  /-- Blocks of numbers whose sides do not match cannot be multiplied. -/
  | misaligned (shape : List Nat)
  /-- A pair has too few parts. -/
  | tooFewParts (count : Nat)
  /-- A pair has too many parts. -/
  | tooManyParts
  /-- Of no values none is the greatest. -/
  | noGreatest
  /-- Fewer than no counts at a time. -/
  | negativeConcurrency
  /-- No key for the language model is configured. -/
  | noApiKey
  /-- A variable's name holds an equals sign. -/
  | badVariableName
  /-- A variable's name or value holds a null character. -/
  | nullCharacter
  deriving Repr

namespace Unusable

/-- The sides of a block between brackets; a single one has a comma behind it. The separator depends
on who says it. -/
def tuple (separator : String) : List Nat → String
  | [n] => "(" ++ intText n ++ ",)"
  | sides => "(" ++ separator.intercalate (sides.map fun (n : Nat) => intText n) ++ ")"

/-- The most characters of a text that the message on a whole number quotes. -/
def quotedLength : Nat := 200

/-- The start of what is said of nested lists that are no block. -/
def notBlock : String := "setting an array element with a sequence. The requested array "

/-- What is said of blocks whose last sides do not match. -/
def sidesDiffer (shape : List Nat) : String :=
  let text := tuple "," shape
  let side (n : Nat) : String :=
    intText (shape[n]?.getD 0) ++ " (dim " ++ intText n ++ ")"
  "shapes " ++ text ++ " and " ++ text ++ " not aligned: " ++ side (shape.length - 1) ++ " != " ++
    side (shape.length - 2)

/-- What is said of a value that cannot be used. -/
def message : Unusable → String
  | notMember value title => value.literal ++ " is not a valid " ++ title
  | notNumber text => "could not convert string to float: " ++ Text.quoted text
  | notWhole text =>
    "invalid literal for int() with base 10: " ++
      String.ofList ((Text.quoted text).toList.take quotedLength)
  | oversized digits =>
    "Exceeds the limit (" ++ intText Numeral.maxDigits ++
      " digits) for integer string conversion: value has " ++ intText digits ++
      " digits; use sys.set_int_max_str_digits() to increase the limit"
  | noPlaces => "Unknown format code 'f' for object of type 'str'"
  | fractionOutOfRange value => "fraction must be within [0, 1], got " ++ value.display
  | ragged shape =>
    notBlock ++ "has an inhomogeneous shape after " ++ intText shape.length ++
      " dimensions. The detected shape was " ++ tuple ", " shape ++ " + inhomogeneous part."
  | overNested most =>
    notBlock ++ "would exceed the maximum number of dimension of " ++ intText most ++ "."
  | misaligned shape => sidesDiffer shape
  | tooFewParts count => "not enough values to unpack (expected 2, got " ++ intText count ++ ")"
  | tooManyParts => "too many values to unpack (expected 2)"
  | noGreatest => "max() iterable argument is empty"
  | negativeConcurrency => "Semaphore initial value must be >= 0"
  | noApiKey => "OPENAI_API_KEY not configured. Set it in your .env file or environment."
  | badVariableName => "illegal environment variable name"
  | nullCharacter => "embedded null byte"

end Unusable

/-! ### Faults

All failures of this library are of one type, so that steps which fail for different reasons can
follow one another and the first failure ends the whole. Two passages bring the failures of numbers
into it. -/

/-- Every way in which an answer can fail. Those without a message of their own are told apart by
their constructor alone. -/
inductive Fault where
  /-- The query is refused, or the store fails. -/
  | query (error : QueryError)
  /-- The request does not fit its model. -/
  | invalid (model : String) (issues : List Issue)
  /-- The language model's reply cannot be used. -/
  | assistant (error : AssistantError)
  /-- A value of a kind that is right cannot be used. -/
  | unusable (cause : Unusable)
  /-- A row lacks a key. -/
  | missingKey (name : String)
  /-- Questions of the category have no prompt. -/
  | noPrompt (category : Category)
  /-- A service failed with a message of its own. -/
  | service (message : String)
  /-- Values of kinds that cannot be compared, joined or converted. -/
  | incompatible
  /-- A whole number too large for binary64. -/
  | tooLarge
  /-- Truth values have no order in the store. -/
  | unorderedFlag
  /-- Something else stands where a value with named parts is expected. -/
  | notArguments
  /-- A decimal with more digits than are kept, or one compared with a NaN. -/
  | undefinedDecimal
  /-- A decimal too large to be kept. -/
  | decimalTooLarge
  /-- A reply is nested more deeply than is read. -/
  | tooDeep
  /-- The environment has no variable without a name. -/
  | namelessVariable
  deriving Repr

namespace Fault

/-- The message of a failure, if it has one of its own. A request that does not fit shows its model
here and its issues elsewhere. -/
def message? : Fault → Option String
  | query error => some error.report.headline
  | invalid model _ => some model
  | assistant error => some error.message
  | unusable cause => some cause.message
  | missingKey name => some (Text.quoted name)
  | noPrompt category =>
    some ("<IntentCategory." ++ Vocabulary.word category ++ ": " ++
      Text.quoted (Vocabulary.word category) ++ ">")
  | service message => some message
  | incompatible | tooLarge | unorderedFlag | notArguments | undefinedDecimal | decimalTooLarge
  | tooDeep | namelessVariable => none

/-- A failure of arithmetic, as a fault: the values on which it failed are not part of it. -/
def ofArithmetic : Number.Failure → Fault
  | .incompatible => incompatible
  | .tooLarge => tooLarge
  | .decimalTooLarge => decimalTooLarge
  | .tooPrecise | .unordered => undefinedDecimal

/-- The failure of converting a text to a whole number, with the text where the message quotes
it. -/
def ofWhole (text : String) : Numeral.WholeFailure → Fault
  | .unreadable => unusable (.notWhole text)
  | .oversized digits => unusable (.oversized digits)

end Fault

/-! ### Required kinds

The steps by which a value is taken to be of a kind, where anything else is a fault. They are used
where rows, replies and arguments are computed with; the fields of requests are read by readers,
which gather their issues and do not stop at the first. -/

/-- The member of a vocabulary that a value names. A value that names none is quoted with the
vocabulary's title. -/
def Vocabulary.require {α : Type} [Vocabulary α] (value : Value) : Except Fault α :=
  match ofValue? value with
  | some a => .ok a
  | none => .error (.unusable (.notMember value (title α)))

namespace Value

/-- The number that a value is. -/
def requireNumber (value : Value) : Except Fault Number :=
  value.number?.elim (.error .incompatible) .ok

/-- The items of a collection. -/
def requireItems (value : Value) : Except Fault (List Value) :=
  value.items?.elim (.error .incompatible) .ok

/-- The two items of a collection of two. A collection of another size is told whether it has too
few or too many. -/
def requirePair (value : Value) : Except Fault (Value × Value) := do
  match ← value.requireItems with
  | [x, y] => return (x, y)
  | items =>
    .error (.unusable (if items.length < 2 then .tooFewParts items.length else .tooManyParts))

end Value

/-- The whole number that a text is converted to; none if the text denotes a number that is not
whole. Whether it denotes a number at all is asked first, by the more lenient of the two
conversions. -/
def Numeral.requireWhole? (text : String) : Except Fault (Option Int) :=
  match (convert? text).map Double.toInt? with
  | none => .error (.unusable (.notNumber text))
  | some none => .ok none
  | some (some _) => ((convertWhole text).mapError (Fault.ofWhole text)).map some

end PropertyMarket
