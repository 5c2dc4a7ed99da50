import PropertyMarket.Number

/-!
# Dynamic values

Requests, rows and replies are trees of values of a few kinds. A record keeps its fields in the
order in which they were written.

## Main definitions

* `Value` — a dynamic value; `Record` — named values in order
* `Record.get?`, `Record.put` — look-up, and the write that keeps a field's place
* `Value.same`, `Value.before?` — equality across number kinds, and the order where there is one

## Implementation notes

Truth values are a kind of their own here and count as numbers nowhere but in `Value.number?`, so a
definition that treats them as numbers has to say so. A record is a list of named values and not a
map: the order of its fields decides the order of keys in an answer and the order in which faults
are found, so both have to be visible to the proofs. Nothing forbids two fields of one name, and the
first of them is the one that is looked up; `Record.put` never makes a second one.
-/

namespace PropertyMarket

/-- A dynamic value. The four kinds of numbers are kept apart, as a request, a reply and a row tell
them apart too; only the comparisons below join them. -/
inductive Value where
  | null
  | bool (value : Bool)
  | int (value : Int)
  | double (value : Double)
  | decimal (value : Decimal)
  | text (value : String)
  | list (items : List Value)
  | record (fields : List (String × Value))
  deriving BEq, Repr, Inhabited

/-- Named values in order. The order is that in which the fields were written, and every function
below keeps it. -/
abbrev Record := List (String × Value)

/-! ### Records

The functions on records keep every field in its place. What was just written under a name is what
the name is looked up as afterwards; everything else that the proofs need of writing and looking up
follows by the same induction over the fields. -/

namespace Record

/-- The value of the first field of a name; nothing where there is no such field, which is not the
same as a field that is null. -/
def get? (r : Record) (name : String) : Option Value := List.lookup name r

/-- Is there a field of the name? -/
def has (r : Record) (name : String) : Bool := r.any fun field => field.1 == name

/-- The value of a field, or null. This is the look-up of rows, in which a column that is absent and
one that holds no value read alike. -/
def getD (r : Record) (name : String) : Value := (r.get? name).getD .null

/-- Writes a field: a new name comes last, a known one keeps its place. Writing twice under one name
therefore leaves one field, with the later value at the earlier place. -/
def put (r : Record) (name : String) (value : Value) : Record :=
  match r with
  | [] => [(name, value)]
  | (n, v) :: rest => if n = name then (name, value) :: rest else (n, v) :: put rest name value

/-- Writes fields in order, so that of two fields of one name the later one decides the value and
the earlier one the place. -/
def putAll (r : Record) (fields : Record) : Record :=
  fields.foldl (fun r field => r.put field.1 field.2) r

/-- The names of the fields, in order. -/
def names (r : Record) : List String := r.map (·.1)

theorem get?_put_self (r : Record) (name : String) (value : Value) :
    (r.put name value).get? name = some value := by
  induction r with
  | nil => simp [put, get?]
  | cons field rest ih =>
    obtain ⟨n, v⟩ := field
    by_cases h : n = name
    · simp [put, h, get?]
    · have h' : (name == n) = false := by simpa using Ne.symm h
      simpa [put, h, get?, List.lookup_cons, h'] using ih

end Record

/-! ### Kinds

What kind a value is of, and the passages between a kind of its own and the values in general. The
passages from optional things all send what is missing to null, so that a record built by them has
the same fields in every case. -/

/-- A number as a value. -/
def Number.toValue : Number → Value
  | .flag b => .bool b
  | .int n => .int n
  | .double x => .double x
  | .decimal d => .decimal d

namespace Value

/-- The number that a value is, truth values included: they count as one and zero wherever numbers
are compared or computed with, and nowhere else. -/
def number? : Value → Option Number
  | .bool b => some (.flag b)
  | .int n => some (.int n)
  | .double x => some (.double x)
  | .decimal d => some (.decimal d)
  | _ => none

@[simp] theorem number?_toValue (x : Number) : x.toValue.number? = some x := by
  cases x <;> rfl

/-- A text in place, of an optional one. -/
def ofText? : Option String → Value
  | some s => .text s
  | none => .null

/-- An integer in place, of an optional one. -/
def ofInt? : Option Int → Value
  | some n => .int n
  | none => .null

/-- A number in place, of an optional one. -/
def ofNumber? : Option Number → Value
  | some x => x.toValue
  | none => .null

/-- Texts as a value. -/
def ofTexts (texts : List String) : Value := .list (texts.map .text)

/-- Records as a value. -/
def ofRecords (records : List Record) : Value := .list (records.map .record)

/-- Is the value null? -/
def isNull : Value → Bool
  | .null => true
  | _ => false

/-- Is the value neither null nor a collection? Only such a value can be compared with a column. -/
def isScalar : Value → Bool
  | .null | .list _ | .record _ => false
  | _ => true

/-- The items of a collection: of a list, the characters of a text, the names of a record. A number
and null have no items, and whoever asks for them fails. -/
def items? : Value → Option (List Value)
  | .list items => some items
  | .text s => some (s.toList.map fun c => .text (String.singleton c))
  | .record fields => some (fields.map fun field => .text field.1)
  | _ => none

/-- Null, false, zero and everything empty count as false, everything else as true, a NaN included.
This is the test of conditions that ask whether a value is given at all. -/
def truthy : Value → Bool
  | .null => false
  | .bool b => b
  | .int n => n != 0
  | .double x => !x.isZero
  | .decimal d => !d.isZero
  | .text s => s != ""
  | .list items => !items.isEmpty
  | .record fields => !fields.isEmpty

/-! ### Equality and order

Equality across kinds is that of the denoted numbers: an integer is the same as a binary64 number of
its value, and a NaN is not the same as itself. It is total, and the order is not: two texts, two
numbers and two lists can be compared, anything else is a failure and not an answer. Both recurse
through the items of lists, and equality through the fields of records too. -/

mutual

/-- The same value: numbers of any kind by what they denote, records whatever their order. Lists
have to agree item by item, and values of different kinds that are not numbers are never the
same. -/
def same : Value → Value → Bool
  | .null, .null => true
  | .text a, .text b => a == b
  | .list xs, .list ys => sameItems xs ys
  | .record xs, .record ys => xs.length == ys.length && sameFields xs ys
  | .bool a, y => sameNumber (.flag a) y
  | .int a, y => sameNumber (.int a) y
  | .double a, y => sameNumber (.double a) y
  | .decimal a, y => sameNumber (.decimal a) y
  | _, _ => false

/-- The same items in the same order. -/
def sameItems : List Value → List Value → Bool
  | [], [] => true
  | x :: xs, y :: ys => same x y && sameItems xs ys
  | _, _ => false

/-- Each field of the first record is the same in the second. Together with an equal number of
fields this is the equality of records that hold each name once. -/
def sameFields : Record → Record → Bool
  | [], _ => true
  | (name, x) :: xs, ys =>
    (match List.lookup name ys with
      | some y => same x y
      | none => false) && sameFields xs ys

/-- The same number: is the value a number at all, and does it denote the same one? -/
def sameNumber (x : Number) : Value → Bool
  | .bool b => x.same (.flag b)
  | .int n => x.same (.int n)
  | .double y => x.same (.double y)
  | .decimal d => x.same (.decimal d)
  | _ => false

end

mutual

/-- Is it less, or, if ties count, the same? Numbers go by what they denote, texts by code points,
and lists by their first items that differ. Other values have no order. -/
def before? (ties : Bool) : Value → Value → Except Number.Failure Bool
  | .text a, .text b => .ok (if ties then decide (a ≤ b) else decide (a < b))
  | .list xs, .list ys => itemsBefore? ties xs ys
  | x, y =>
    match x.number?, y.number? with
    | some a, some b => a.before? ties b
    | _, _ => .error .incompatible

/-- The order of lists: of two that do not differ in an item, the shorter one is less. -/
def itemsBefore? (ties : Bool) : List Value → List Value → Except Number.Failure Bool
  | [], [] => .ok ties
  | [], _ :: _ => .ok true
  | _ :: _, [] => .ok false
  | x :: xs, y :: ys => if x.same y then itemsBefore? ties xs ys else before? ties x y

end

end Value

end PropertyMarket
