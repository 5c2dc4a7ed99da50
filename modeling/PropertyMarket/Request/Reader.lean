import PropertyMarket.Request.Checked
import PropertyMarket.Number.Reader

/-!
# Reading the parts of a request

A request is a record whose fields are read one by one. A field has two names, one with humps and
one with underscores; the first counts if both are given, and an issue is reported under the name
that counts. Numbers are read leniently unless said otherwise: a truth value counts as 0 or 1, a
text may denote a number.

## Main definitions

* `Key` — the two names of a field; `Key.required`, `Key.withDefault`
* `Reader.text`, `Reader.int`, `Reader.double`, `Reader.word`, `Reader.list` — readings of values
* `Amount` — a number that is read strictly

## Implementation notes

A reader is a function from a value to a reading, and knows neither the field it reads nor the
model. A field is read by giving its key a reader, and a model by joining its fields, so the text of
a model is a list of keys with their readers in the order in which issues are reported. `Reader.int`
takes every form of an integer, `Reader.strictInt` integers only; the latter reads the least number
of sales of an intent, and the former every other integer.
-/

namespace PropertyMarket

/-! ### Fields

A field is looked up under both of its names, the first one first. Whether it is missing is asked
once, here; what happens then is the difference between a field that has to be given and one with a
default. -/

/-- The two names of a field. They may be the same. -/
structure Key where
  camel : String
  snake : String
  deriving DecidableEq, Repr

/-- The style in which fields are named when a request is written; reading takes both. -/
inductive Naming where
  | camel
  | snake
  deriving DecidableEq, Repr

namespace Key

/-- A field whose names are the same. -/
def plain (name : String) : Key := ⟨name, name⟩

/-- The name in a style. -/
def name (key : Key) : Naming → String
  | .camel => key.camel
  | .snake => key.snake

/-- The value of the field, if it is given. A field that is null is given. -/
def find? (key : Key) (r : Record) : Option Value :=
  match r.get? key.camel with
  | some value => some value
  | none => r.get? key.snake

/-- The name under which the field is given; the first one if it is not. Issues are reported under
it. -/
def given (key : Key) (r : Record) : String :=
  if r.has key.camel || !r.has key.snake then key.camel else key.snake

/-- Reads a field that has to be given; a missing one is an issue at its place. -/
def required {α : Type} (key : Key) (read : Value → Checked α) (r : Record) : Checked α :=
  match key.find? r with
  | some value => (read value).under (.key (key.given r))
  | none => .invalid [⟨[.key (key.given r)], .missing⟩]

/-- Reads a field that has a value of its own if it is not given. The default is not checked: it is
a value already. -/
def withDefault {α : Type} (key : Key) (value : α) (read : Value → Checked α) (r : Record) :
    Checked α :=
  match key.find? r with
  | some given => (read given).under (.key (key.given r))
  | none => .valid value

end Key

namespace Reader

variable {α : Type}

/-! ### Plain values

Readers of single values. Each accepts the forms that its kind can be given in, and every other
value is one issue at the value itself. -/

/-- Null, or a value. Null is looked at first, so that a reader which accepts null is not asked. -/
def nullable (read : Value → Checked α) : Value → Checked (Option α)
  | .null => .valid none
  | value => some <$> read value

/-- A text. -/
def text : Value → Checked String
  | .text s => .valid s
  | _ => .refuse .notText

/-- Any value. -/
def any (value : Value) : Checked Value := .valid value

/-- The integer that a text denotes. A text that is too long is told apart from one that is no
number. -/
def intOfText (s : String) : Checked Int :=
  match Numeral.readWhole s with
  | .ok n => .valid n
  | .error .unreadable => .refuse .unreadableInt
  | .error (.oversized _) => .refuse .oversizedInt

/-- The integer that a binary64 number is, if it is one within 64 bits. Each of the three reasons
against it has an issue of its own. -/
def intOfDouble (x : Double) : Checked Int :=
  if !x.isFinite then .refuse .notFinite
  else match x.toInt? with
    | some n => if n.natAbs < Nat.pow 2 63 then .valid n else .refuse .oversizedInt
    | none => .refuse .fractional

/-- An integer, which may be given as a number without a fraction, a truth value or a text. -/
def int : Value → Checked Int
  | .int n => .valid n
  | .bool b => .valid (Number.ofFlag b)
  | .double x => intOfDouble x
  | .decimal d => d.toInt?.elim (.refuse .fractional) .valid
  | .text s => intOfText s
  | _ => .refuse .notInt

/-- An integer that is given as one. -/
def strictInt : Value → Checked Int
  | .int n => .valid n
  | _ => .refuse .notInt

/-- A number as binary64. An integer is too large if the nearest binary64 number is not finite. -/
def double : Value → Checked Double
  | .double x => .valid x
  | .bool b => .valid (Double.ofInt (Number.ofFlag b))
  | .int n => (Double.ofInt? n).elim (.refuse .notNumber) .valid
  | .decimal d => .valid d.toDouble
  | .text s => (Numeral.readDouble? s).elim (.refuse .unreadableNumber) .valid
  | _ => .refuse .notNumber

/-- An integer that is not below a bound, and not above another if there is one. The bounds are
looked at once it is known to be an integer. -/
def intWithin (low : Int) (high : Option Int) (read : Value → Checked Int) (value : Value) :
    Checked Int :=
  (read value).andThen fun n =>
    if n < low then .refuse (.below low)
    else match high with
      | some high => if high < n then .refuse (.above high) else .valid n
      | none => .valid n

/-- A word of a vocabulary. The issue lists the words. -/
def word (α : Type) [Vocabulary α] (value : Value) : Checked α :=
  (Vocabulary.ofValue? value).elim (.refuse (.notLiteral (Vocabulary.words α))) .valid

/-- A member of a vocabulary: the same choice as a word, with another issue if it is none. -/
def member (α : Type) [Vocabulary α] (value : Value) : Checked α :=
  (Vocabulary.ofValue? value).elim (.refuse (.notMember (Vocabulary.words α))) .valid

/-! ### Collections

Readers of collections read their items by another reader. The issues of all items are listed, and a
check of the length comes before or after them as the definition says. -/

/-- A list. -/
def list (read : Value → Checked α) : Value → Checked (List α)
  | .list items => Checked.each read items
  | _ => .refuse .notList

/-- A list with at least one item; the items are read before they are counted. -/
def nonEmpty (read : Value → Checked α) (value : Value) : Checked (List α) :=
  (list read value).andThen fun items =>
    if items.isEmpty then .refuse (.tooShort 1 0) else .valid items

/-- A list with at most a number of items; a longer one is not looked into. -/
def listUpTo (most : Nat) (read : Value → Checked α) : Value → Checked (List α)
  | .list items =>
    if most < items.length then .refuse (.tooLong most items.length) else Checked.each read items
  | _ => .refuse .notList

/-- Named values: the fields of a record, all read in one way. -/
def named (read : Value → Checked α) : Value → Checked (List (String × α))
  | .record fields => Checked.eachNamed read fields
  | _ => .refuse .notRecord

/-- A record that is read by a model. Anything else does not fit, and the issue names the model. -/
def model (name : String) (read : Record → Checked α) : Value → Checked α
  | .record fields => read fields
  | _ => .refuse (.notModel name)

end Reader

/-! ### Amounts

The bounds of a filter are numbers that are given as numbers: neither a text nor a truth value is
one. An integer stays one, so that a bound on an integer column is compared as it was written. -/

/-- A number that is given as one: integers stay integers, and decimals become binary64 numbers. -/
inductive Amount where
  | int (value : Int)
  | double (value : Double)
  deriving DecidableEq, Repr

namespace Amount

/-- The amount as a value. -/
def toValue : Amount → Value
  | int n => .int n
  | double x => .double x

/-- The amount that a value is, if it is a number by kind. -/
def ofValue? : Value → Option Amount
  | .int n => some (int n)
  | .double x => some (double x)
  | .decimal d => some (double d.toDouble)
  | _ => none

/-- The issues of a value that is no amount: it is neither kind of number, and both are listed. -/
def notOne : List Issue :=
  [⟨[.key "int"], .notInt⟩, ⟨[.key "float"], .notNumber⟩]

/-- Reads an amount. -/
def read (value : Value) : Checked Amount := (ofValue? value).elim (.invalid notOne) .valid

theorem ofValue?_toValue (a : Amount) : ofValue? a.toValue = some a := by
  cases a <;> rfl

end Amount

end PropertyMarket
