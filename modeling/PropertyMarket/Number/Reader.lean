import PropertyMarket.Number.Double
import PropertyMarket.Text.Blank
import PropertyMarket.Text.ScriptDigit

/-!
# Reading numbers from text

Three readings of a number that is given as text: a whole number in a request, a number in a
request, and the conversion of a text where a number is computed with.

## Main definitions

* `Numeral.readWhole` — a whole number in a request, in its plainest form or with what
  `Numeral.plainForm?` takes away
* `Numeral.readDouble?` — a binary64 number in a request
* `Numeral.convert?`, `Numeral.convertWhole` — the conversions, which also know the digits of
  other scripts

## Implementation notes

The three readings differ in what they let pass, and each of them is written as the way by which the
text is brought into a plainer form, followed by one reader of plain forms. So the question which
texts are accepted comes down to what the forms are made of. The limit on the number of digits is
part of the two readings of whole numbers and not of the readings of binary64 numbers, whose
conversion takes any number of digits.
-/

namespace PropertyMarket

namespace Numeral

/-- A sign and what follows it. -/
def splitSign : List Char → Bool × List Char
  | '-' :: cs => (true, cs)
  | '+' :: cs => (false, cs)
  | cs => (false, cs)

/-! ### Whole numbers

A whole number in a request is first read as it stands. Only if that fails is the text brought into
its plainest form, and then read once more. A number with too many digits is a failure of its own,
which the message of the fault shows, and it is found in the first reading only. -/

/-- The most digits of a whole number that is read from text. The limit is on the digits as written,
and not on the value. -/
def maxDigits : Nat := 4300

/-- Why a text denotes no whole number: it is not one, or it is too long to be read. -/
inductive WholeFailure where
  | unreadable
  /-- It has more digits than are read. -/
  | oversized (digits : Nat)
  deriving DecidableEq, Repr

/-- An integer with a sign. -/
def signedInt (negative : Bool) (digits : List Char) : Int :=
  let n : Int := natOfDigits digits
  if negative then -n else n

/-- A whole number in its plainest form: a minus perhaps, and digits without a superfluous zero
at the front. The minus counts among the digits, and too many of them are a failure of their own,
whatever follows them. -/
def readPlain (cs : List Char) : Except WholeFailure Int :=
  let (negative, body) := match cs with
    | '-' :: rest => (true, rest)
    | _ => (false, cs)
  let digits := body.takeWhile Char.isDigit
  let width := digits.length + if negative then 1 else 0
  if digits.head? = some '0' then if body = ['0'] then .ok 0 else .error .unreadable
  else if maxDigits < width then .error (.oversized width)
  else if digits = [] ∨ digits.length < body.length then .error .unreadable
  else .ok (signedInt negative digits)

/-- What follows zeros, with underscores among them: the rest from its first other digit, or from a
minus. Before a point, and at the end, the character before it is kept, which is `last`, so that one
digit is left of a number that is zero. -/
def afterZeros? (last : Char) : List Char → Option (List Char)
  | [] => some [last]
  | c :: cs =>
    if c = '0' ∨ c = '_' then afterZeros? c cs
    else if c = '.' then some (last :: c :: cs)
    else if c = '-' ∨ c.isDigit then some (c :: cs)
    else none

/-- Without the zeros at the front of digits. Nothing is returned if the text does not begin with a
digit. -/
def dropFrontZeros? : List Char → Option (List Char)
  | [] => none
  | c :: cs =>
    if c = '0' then afterZeros? c cs
    else if c.isDigit then some (c :: cs)
    else none

/-- Without a point that only zeros follow, at least one of them. -/
def dropZeroPlaces (cs : List Char) : List Char :=
  match cs.dropWhile (· ≠ '.') with
  | '.' :: places => if places ≠ [] ∧ places.all (· = '0') then cs.takeWhile (· ≠ '.') else cs
  | _ => cs

/-- The text without its underscores, if none of them is at an end or beside another. They may stand
beside any other character, a point among them. -/
def dropUnderscores? (cs : List Char) : Option (List Char) :=
  if cs.head? = some '_' ∨ cs.getLast? = some '_' ∨
      (cs.zip (cs.drop 1)).contains ('_', '_') then none
  else some (cs.filter (· ≠ '_'))

/-- The plainest form of a whole number that is written with blanks around it, a plus, zeros at the
front, underscores or places that are zero. It is not checked here that the result is a number; the
reader of plain numbers does that. -/
def plainForm? (cs : List Char) : Option (List Char) :=
  let tidy (body : List Char) : Option (List Char) :=
    (dropFrontZeros? body).map fun ds =>
      let whole := dropZeroPlaces ds
      (dropUnderscores? whole).getD whole
  match Text.trim Text.isBlank cs with
  | '+' :: '-' :: _ => none
  | '+' :: rest => tidy rest
  | '-' :: rest => (tidy rest).map ('-' :: ·)
  | rest => tidy rest

/-- A whole number in a request: as it is, or in its plainest form. Only a number that is too long
as it is given is reported as such. -/
def readWhole (s : String) : Except WholeFailure Int :=
  match readPlain s.toList with
  | .ok n => .ok n
  | .error (.oversized width) => .error (.oversized width)
  | .error .unreadable =>
    match (plainForm? s.toList).map readPlain with
    | some (.ok n) => .ok n
    | _ => .error .unreadable

/-! ### Numbers in a request

A binary64 number in a request has at most one sign, digits with at most one point, and an exponent,
or is one of the words for numbers that are not finite. The nearest binary64 number is taken, so
that a text with any number of digits is read. -/

/-- An exponent: nothing, or the mark, a sign and digits. The whole rest of the text has to be used
up. -/
def exponent? : List Char → Option Int
  | [] => some 0
  | c :: cs =>
    if c = 'e' ∨ c = 'E' then
      let (negative, ds) := splitSign cs
      if ds ≠ [] ∧ ds.all Char.isDigit then some (signedInt negative ds) else none
    else none

/-- Digits with at most one point, at least one digit in all, then an exponent. The words are
recognised in either case. -/
def unsigned? (negative : Bool) (cs : List Char) : Option Double :=
  let word := String.ofList (cs.map Char.toLower)
  if word = "inf" ∨ word = "infinity" then some (.infinite negative)
  else if word = "nan" then some .nan
  else
    let whole := cs.takeWhile Char.isDigit
    let rest := cs.dropWhile Char.isDigit
    let (places, rest) := match rest with
      | '.' :: r => (r.takeWhile Char.isDigit, r.dropWhile Char.isDigit)
      | r => ([], r)
    if whole ++ places = [] then none
    else (exponent? rest).map fun e =>
      Double.ofDecimal negative (natOfDigits (whole ++ places)) (e - places.length)

/-- A sign and a number. -/
def plain? (cs : List Char) : Option Double :=
  let (negative, rest) := splitSign cs
  unsigned? negative rest

/-- A number in a request: blanks around it are skipped; underscores may stand in it if no blanks
are around it, since the second attempt takes the text as it is given. -/
def readDouble? (s : String) : Option Double :=
  match plain? (Text.trim Text.isBlank s.toList) with
  | some x => some x
  | none => (dropUnderscores? s.toList).bind plain?

/-! ### Conversions

A text that stands where a number is computed with is converted by other rules than one in a
request: the digits of every script count, and an underscore has to stand between two digits. Both
rules are applied before the text is read, by bringing it to ASCII and taking the underscores out.
-/

/-- Without underscores, each of which has to stand between two digits. The character before is
handed along because it is needed for the test. -/
def joinBetweenDigits? (before : Option Char) : List Char → Option (List Char)
  | [] => some []
  | '_' :: rest =>
    if (before.map Char.isDigit).getD false && (rest.head?.map Char.isDigit).getD false then
      joinBetweenDigits? (some '_') rest
    else none
  | c :: rest => (joinBetweenDigits? (some c) rest).map (c :: ·)

/-- A text that is converted: without the blanks around it, and with the digits of any script as
ASCII digits. All other characters are left as they are. -/
def convertible (s : String) : List Char :=
  (Text.trim Text.isBlank s.toList).map Text.asciiDigit

/-- The conversion of a text to a number: blanks around it are skipped, underscores stand
between digits, and digits of any script count. -/
def convert? (s : String) : Option Double :=
  (joinBetweenDigits? none (convertible s)).bind plain?

/-- The conversion of a text to a whole number: as to a number, but with nothing except a sign
and digits, of which there may be zeros at the front. -/
def convertWhole (s : String) : Except WholeFailure Int :=
  let (negative, body) := splitSign (convertible s)
  match dropUnderscores? (body.takeWhile fun c => c.isDigit || c == '_') with
  | none => .error .unreadable
  | some digits =>
    if maxDigits < digits.length then .error (.oversized digits.length)
    else if digits = [] ∨ !(body.all fun c => c.isDigit || c == '_') then .error .unreadable
    else .ok (signedInt negative digits)

end Numeral

end PropertyMarket
