import PropertyMarket.Number.Reader
import PropertyMarket.Text.Quoted
import PropertyMarket.Value

/-!
# JSON

Reading and writing values as JSON. A number with neither a fraction nor an exponent is an
integer, any other a binary64 number; the words `NaN`, `Infinity` and `-Infinity` are numbers
too. Of fields of one name the last value counts, at the first one's place.

## Main definitions

* `Json.read` — the value of a whole text, or why there is none
* `Json.Style`, `Json.write` — a value on one line, with or without characters beyond ASCII

## Implementation notes

The reader spends one unit of fuel for each value and each field or item, and each of them uses
at least one character, so the length of the text is enough. Of several failures the first one
from the left is reported.
-/

namespace PropertyMarket

namespace Json

/-! ### Reading

A recursive descent over the characters. Every reader takes the text from where it stands and
returns what it has read with the rest, so that none of them ever looks back. White space is skipped
before each token and nowhere inside one. -/

/-- Why a text is not read. The three reasons are kept apart because whoever reads a reply treats
them differently: only the first one is a text that is not JSON. -/
inductive Failure where
  /-- It is not JSON. -/
  | malformed
  /-- An integer in it has more digits than are read. -/
  | oversized (digits : Nat)
  /-- Lists and records in it are nested more deeply than is read. -/
  | tooDeep
  deriving DecidableEq, Repr

/-- How deeply lists and records may be nested. -/
def mostLevels : Nat := 10000

/-- What is read, or a text that is not JSON: the passage from readers with one way to fail to those
with several. -/
def require {α : Type} (read? : Option α) : Except Failure α := read?.elim (.error .malformed) .ok

/-- The white space between tokens. -/
def isGap (c : Char) : Bool := c == ' ' || c == '\t' || c == '\n' || c == '\r'

/-- Without leading white space. -/
def skipGap (cs : List Char) : List Char := cs.dropWhile isGap

/-- The value of hexadecimal digits, of either case and most significant first; nothing if one of
the characters is no such digit. -/
def hexValue? (cs : List Char) : Option Nat :=
  cs.foldlM (fun n c =>
    if c.isDigit then some (16 * n + (c.toNat - '0'.toNat))
    else if 'a' ≤ c ∧ c ≤ 'f' then some (16 * n + (c.toNat - 'a'.toNat + 10))
    else if 'A' ≤ c ∧ c ≤ 'F' then some (16 * n + (c.toNat - 'A'.toNat + 10))
    else none) 0

/-- Is `n` the first, or the second, half of a surrogate pair? The second half has to follow the
first, escaped as well, for the two to be one character. -/
def isHighHalf (n : Nat) : Bool := 0xd800 ≤ n && n < 0xdc00

@[inherit_doc isHighHalf]
def isLowHalf (n : Nat) : Bool := 0xdc00 ≤ n && n < 0xe000

/-- A code unit on its own; half of a surrogate pair has no character and is replaced. -/
def unitChar (n : Nat) : Char :=
  if isHighHalf n || isLowHalf n then '\ufffd' else Char.ofNat n

/-- The character of a one-letter escape. -/
def escaped? : Char → Option Char
  | '"' => some '"'
  | '\\' => some '\\'
  | '/' => some '/'
  | 'b' => some '\x08'
  | 'f' => some '\x0c'
  | 'n' => some '\n'
  | 'r' => some '\r'
  | 't' => some '\t'
  | _ => none

/-- The characters up to the closing quote, and what follows it. Control characters have to be
escaped. Two escapes that are the halves of a surrogate pair give one character; a half that stands
alone is replaced, and the escape after it is read on its own. -/
def readText? : Nat → List Char → List Char → Option (String × List Char)
  | 0, _, _ => none
  | fuel + 1, done, cs =>
    match cs with
    | '"' :: rest => some (String.ofList done.reverse, rest)
    | '\\' :: 'u' :: a :: b :: c :: d :: rest =>
      match hexValue? [a, b, c, d] with
      | none => none
      | some high =>
        match rest with
        | '\\' :: 'u' :: e :: f :: g :: h :: rest' =>
          match hexValue? [e, f, g, h] with
          | some low =>
            if isHighHalf high && isLowHalf low then
              let c := Char.ofNat (0x10000 + (high - 0xd800) * 0x400 + (low - 0xdc00))
              readText? fuel (c :: done) rest'
            else readText? fuel (unitChar high :: done) rest
          | none => readText? fuel (unitChar high :: done) rest
        | _ => readText? fuel (unitChar high :: done) rest
    | '\\' :: c :: rest =>
      match escaped? c with
      | some c => readText? fuel (c :: done) rest
      | none => none
    | c :: rest => if c.toNat < 0x20 then none else readText? fuel (c :: done) rest
    | [] => none

/-- A word at the front of the text: what follows it, or nothing if the text begins otherwise. -/
def word? (word : String) (cs : List Char) : Option (List Char) :=
  if word.toList.isPrefixOf cs then some (cs.drop word.length) else none

/-- A number without its sign: digits without a superfluous zero, a fraction, an exponent. A point
without digits behind it, and a mark without an exponent, are not part of the number; they are left
for whoever reads on, who refuses them. Only a number without both can have too many digits. -/
def readNumber (negative : Bool) (cs : List Char) : Except Failure (Value × List Char) :=
  let whole := if cs.head? = some '0' then ['0'] else cs.takeWhile Char.isDigit
  let rest := cs.drop whole.length
  let places := match rest with
    | '.' :: r => r.takeWhile Char.isDigit
    | _ => []
  let afterPlaces := if places = [] then rest else rest.drop (places.length + 1)
  let exponent : Option (Int × List Char) := match afterPlaces with
    | c :: r =>
      if c = 'e' ∨ c = 'E' then
        let (minus, r) := Numeral.splitSign r
        let ds := r.takeWhile Char.isDigit
        if ds = [] then none else some (Numeral.signedInt minus ds, r.drop ds.length)
      else none
    | [] => none
  let double (e : Int) : Value :=
    .double (Double.ofDecimal negative (natOfDigits (whole ++ places)) (e - places.length))
  if whole = [] then .error .malformed
  else match exponent with
    | some (e, rest) => .ok (double e, rest)
    | none =>
      if places ≠ [] then .ok (double 0, afterPlaces)
      else if Numeral.maxDigits < whole.length then .error (.oversized whole.length)
      else .ok (.int (Numeral.signedInt negative whole), rest)

/-- A word or a number. The first character decides which of them is expected, and a text that
begins in no such way is not JSON. -/
def readAtom (cs : List Char) : Except Failure (Value × List Char) :=
  let word (w : String) (v : Value) := require ((word? w cs).map fun rest => (v, rest))
  match cs with
  | 'n' :: _ => word "null" .null
  | 't' :: _ => word "true" (.bool true)
  | 'f' :: _ => word "false" (.bool false)
  | 'N' :: _ => word "NaN" (.double .nan)
  | 'I' :: _ => word "Infinity" (.double (.infinite false))
  | '-' :: 'I' :: _ => word "-Infinity" (.double (.infinite true))
  | '-' :: rest => readNumber true rest
  | _ => readNumber false cs

mutual

/-- A value at the front of the text, with no more levels inside it than are left, and what follows
it. An empty list or record needs a level like any other one, so a text that is nested too deeply is
refused at the bracket that opens the level too many. -/
def readValue : Nat → Nat → List Char → Except Failure (Value × List Char)
  | 0, _, _ => .error .malformed
  | fuel + 1, levels, cs =>
    match skipGap cs with
    | '"' :: rest => do
      let (s, rest) ← require (readText? (rest.length + 1) [] rest)
      return (.text s, rest)
    | '[' :: rest =>
      if levels = 0 then .error .tooDeep
      else match skipGap rest with
        | ']' :: rest => .ok (.list [], rest)
        | rest => do
          let (items, rest) ← readItems fuel (levels - 1) rest []
          return (.list items, rest)
    | '\x7b' :: rest =>
      if levels = 0 then .error .tooDeep
      else match skipGap rest with
        | '\x7d' :: rest => .ok (.record [], rest)
        | rest => do
          let (fields, rest) ← readFields fuel (levels - 1) rest []
          return (.record fields, rest)
    | cs => readAtom cs

/-- Items up to the closing bracket, gathered in reverse. After a comma there has to be another
item. -/
def readItems : Nat → Nat → List Char → List Value → Except Failure (List Value × List Char)
  | 0, _, _, _ => .error .malformed
  | fuel + 1, levels, cs, done => do
    let (x, rest) ← readValue fuel levels cs
    match skipGap rest with
    | ',' :: rest => readItems fuel levels rest (x :: done)
    | ']' :: rest => return ((x :: done).reverse, rest)
    | _ => .error .malformed

/-- Fields up to the closing brace, written one after the other into the record of those before. A
name that comes again therefore changes the value at its first place. -/
def readFields : Nat → Nat → List Char → Record → Except Failure (Record × List Char)
  | 0, _, _, _ => .error .malformed
  | fuel + 1, levels, cs, done =>
    match skipGap cs with
    | '"' :: rest => do
      let (name, rest) ← require (readText? (rest.length + 1) [] rest)
      match skipGap rest with
      | ':' :: rest =>
        let (x, rest) ← readValue fuel levels rest
        match skipGap rest with
        | ',' :: rest => readFields fuel levels rest (Record.put done name x)
        | '\x7d' :: rest => return (Record.put done name x, rest)
        | _ => .error .malformed
      | _ => .error .malformed
    | _ => .error .malformed

end

/-- The value of a whole text: one value, with nothing but white space around it. -/
def read (s : String) : Except Failure Value := do
  let cs := s.toList
  let (x, rest) ← readValue (cs.length + 1) mostLevels cs
  if (skipGap rest).isEmpty then return x else .error .malformed

/-! ### Writing

A value is written on one line. The style only decides about characters beyond ASCII, which one
reader wants as they are and another one escaped; everything else is written in one way in both of
them. -/

/-- Which characters a written text may hold. -/
inductive Style where
  /-- ASCII only: other characters are written as escaped UTF-16 units. -/
  | ascii
  /-- All characters but the controls. -/
  | full
  deriving DecidableEq, Repr

/-- One UTF-16 unit, escaped: a mark and four hexadecimal digits. -/
def unitEscape (n : Nat) : List Char := '\\' :: 'u' :: Text.hex 4 n

/-- One character of a written text. Quotes, backslashes and controls are escaped in every style; a
character beyond the first 65536 takes two units where ASCII is asked for. -/
def escapeChar (style : Style) (c : Char) : List Char :=
  let n := c.toNat
  if c = '"' then ['\\', '"']
  else if c = '\\' then ['\\', '\\']
  else if c = '\n' then ['\\', 'n']
  else if c = '\r' then ['\\', 'r']
  else if c = '\t' then ['\\', 't']
  else if c = '\x08' then ['\\', 'b']
  else if c = '\x0c' then ['\\', 'f']
  else if n < 0x20 then unitEscape n
  else if style = .full ∨ n < 0x7f then [c]
  else if n < 0x10000 then unitEscape n
  else unitEscape (0xd800 + (n - 0x10000) / 0x400) ++ unitEscape (0xdc00 + (n - 0x10000) % 0x400)

/-- A text in its quotes. -/
def writeText (style : Style) (s : String) : String :=
  String.ofList ('"' :: (s.toList.flatMap (escapeChar style) ++ ['"']))

/-- A binary64 number, with the words for infinities and NaN. They are no JSON by the standard, but
the reader above takes them back. -/
def writeDouble : Double → String
  | .nan => "NaN"
  | .infinite s => if s then "-Infinity" else "Infinity"
  | x => x.toText

mutual

/-- A value on one line, with a blank after each comma and colon, and with the fields of a record in
their order. -/
def write (style : Style) : Value → String
  | .null => "null"
  | .bool b => if b then "true" else "false"
  | .int n => intText n
  | .double x => writeDouble x
  | .decimal d => d.toText
  | .text s => writeText style s
  | .list items => "[" ++ ", ".intercalate (writeItems style items) ++ "]"
  | .record fields => "\x7b" ++ ", ".intercalate (writeFields style fields) ++ "\x7d"

/-- Each item. -/
def writeItems (style : Style) : List Value → List String
  | [] => []
  | x :: xs => write style x :: writeItems style xs

/-- Each field. -/
def writeFields (style : Style) : Record → List String
  | [] => []
  | (name, x) :: xs => (writeText style name ++ ": " ++ write style x) :: writeFields style xs

end

end Json

end PropertyMarket
