import PropertyMarket.Proofs.Fields
import PropertyMarket.Request.Intent

/-!
# Ignoring is omitting

What an intent merely infers is ignored where it makes no sense. To ignore a value is to read the
intent as if the value were null: nothing else of the intent is read differently, and none of its
issues goes away or is added. So the inferred fields have no say in whether an intent is accepted.

The argument is about two intents that differ in one field. A field is looked up under two names,
so a write under the names of one field leaves the look-ups of all others alone, and the reading of
an intent only depends on these look-ups.

## Main definitions

* `UserIntent.Inferred` — the fields that may be ignored, each with the values that it accepts
* `Key.SameIn` — two records give a field alike

## Main results

* `UserIntent.Inferred.pick_eq_none_iff` — exactly the values that are not accepted are ignored
* `FilterState.ofIntent_put` — an ignored value might as well be null, and no value makes an intent
  fail

## Implementation notes

The model reads an intent field by field, and each field by a look-up under its two names. That an
ignored value might as well be null is thus a statement about look-ups: those of the other fields do
not see the write, and that of the field itself gives null, which is read as nothing as well. The
names of different fields are compared by going through all pairs of them, once.

Values are written under the name by which the record gives the field, since a value under the other
name would be passed over.
-/

namespace PropertyMarket

/-! ### Writing one field, looking up another

A field has a name in each of two spellings, and a record may use either. A write changes the
look-up of one field, and leaves the look-up of every field that shares no name with it. -/

/-- Which issues four joined readings have does not depend on what is made of their values. -/
theorem Checked.invalid_congr {α β γ δ ε : Type} (f g : α → β → γ → δ → ε) (x : Checked α)
    (y : Checked β) (z : Checked γ) (w : Checked δ) (issues : List Issue) :
    f <$> x <*> y <*> z <*> w = .invalid issues ↔ g <$> x <*> y <*> z <*> w = .invalid issues := by
  cases x <;> cases y <;> cases z <;> cases w <;> simp [Functor.map, Seq.seq, map, seq]

namespace Key

variable {key other : Key} {r r' : Record}

theorem given_eq (key : Key) (r : Record) : key.given r = key.camel ∨ key.given r = key.snake := by
  unfold given
  split
  · exact .inl rfl
  · exact .inr rfl

/-- What is written under the name of a field is the value of the field. -/
theorem find?_put_given (key : Key) (r : Record) (v : Value) :
    key.find? (r.put (key.given r) v) = some v := by
  unfold find? given
  by_cases first : (r.has key.camel || !r.has key.snake) = true
  · rw [if_pos first, Record.get?_put_self]
  · obtain ⟨lacks, holds⟩ : r.has key.camel = false ∧ r.has key.snake = true := by
      simpa using first
    have differ : key.camel ≠ key.snake := fun same => by simp [same, holds] at lacks
    have absent : r.get? key.camel = none := by
      rwa [Record.has_eq_isSome, Option.isSome_eq_false_iff, Option.isNone_iff_eq_none] at lacks
    rw [if_neg first, Record.get?_put_of_ne differ, absent, Record.get?_put_self]

/-- Two records give a field alike: under the same name, and with the same value. Whatever reads the
field cannot tell them apart. -/
def SameIn (key : Key) (r r' : Record) : Prop :=
  key.find? r' = key.find? r ∧ key.given r' = key.given r

theorem SameIn.withDefault_eq {α : Type} (h : key.SameIn r r') (standard : α)
    (read : Value → Checked α) :
    key.withDefault standard read r' = key.withDefault standard read r := by
  rw [withDefault, withDefault, h.1, h.2]

theorem SameIn.lenient_eq {α : Type} (h : key.SameIn r r') (pick : Value → Option α) :
    UserIntent.lenient key pick r' = UserIntent.lenient key pick r := by
  rw [UserIntent.lenient, UserIntent.lenient, h.1]

/-- Two fields have no name in common. -/
def Apart (key other : Key) : Prop :=
  (key.camel ≠ other.camel ∧ key.camel ≠ other.snake) ∧
    key.snake ≠ other.camel ∧ key.snake ≠ other.snake

instance : Decidable (key.Apart other) := inferInstanceAs (Decidable (_ ∧ _))

/-- A write under the name of one field leaves the fields apart from it as they are, and so
everything that is read of them. -/
theorem Apart.sameIn (h : key.Apart other) (r : Record) (v : Value) :
    key.SameIn r (r.put (other.given r) v) := by
  obtain ⟨camel, snake⟩ : key.camel ≠ other.given r ∧ key.snake ≠ other.given r := by
    obtain name | name := other.given_eq r
    · exact ⟨name ▸ h.1.1, name ▸ h.2.1⟩
    · exact ⟨name ▸ h.1.2, name ▸ h.2.2⟩
  generalize other.given r = name at camel snake
  simp only [SameIn, find?, given, Record.has_eq_isSome, Record.get?_put_of_ne camel,
    Record.get?_put_of_ne snake, and_self]

end Key

/-! ### The fields that may be ignored

They are seven, and for each of them it is said in plain terms which values it accepts. That the
model ignores exactly the others is a case analysis on the field and on the shape of the value. -/

namespace UserIntent

/-- The fields of an intent that may be ignored. Each has a key and a function that picks the values
it accepts. -/
inductive Inferred where
  | dimension
  | metric
  | type
  | year
  | month
  | limit
  | order
  deriving DecidableEq, Repr

namespace Inferred

/-- The names of a field. -/
def key : Inferred → Key
  | dimension => dimensionKey
  | metric => Key.metric
  | type => Key.propertyType
  | year => Key.year
  | month => Key.month
  | limit => Key.limit
  | order => Key.sortOrder

/-- What a value of a field stands for. -/
def Meaning : Inferred → Type
  | dimension | metric => String
  | type => PropertyType
  | year | month | limit => Int
  | order => SortOrder

/-- What a value of a field is read as, if it is read as anything. -/
def pick : (f : Inferred) → Value → Option f.Meaning
  | dimension => dimension?
  | metric => metric?
  | type => Vocabulary.ofValue? (α := PropertyType)
  | year => year?
  | month => month?
  | limit => limit?
  | order => Vocabulary.ofValue? (α := SortOrder)

/-- The values that a field accepts, by their kind and their range. A value of another kind is never
accepted, and in particular null is not. -/
def Accepts : Inferred → Value → Prop
  | dimension, .text s => s ∈ Dimension.names
  | metric, .text s => s ∈ Metric.names
  | type, .text s => s = "apartment" ∨ s = "house"
  | year, .int n => Calendar.firstYear ≤ n ∧ n ≤ Calendar.latestYear
  | month, .int n => 1 ≤ n ∧ n ≤ 12
  | limit, .int n => 1 ≤ n ∧ n ≤ 500
  | order, .text s => s = "asc" ∨ s = "desc"
  | _, _ => False

end Inferred

theorem nameOf?_text_eq_none_iff {names : List String} {s : String} :
    nameOf? names (.text s) = none ↔ s ∉ names := by
  simp [nameOf?]

theorem ofValue?_text_eq_none_iff {α : Type} [Vocabulary α] {s : String} :
    Vocabulary.ofValue? (α := α) (.text s) = none ↔ s ∉ Vocabulary.words α := by
  rw [Vocabulary.ofValue?, Vocabulary.ofWord?, List.find?_eq_none, Vocabulary.words]
  simp

theorem isYear_int_iff {n : Int} :
    Calendar.isYear (.int n) = true ↔ Calendar.firstYear ≤ n ∧ n ≤ Calendar.latestYear := by
  simp only [Calendar.isYear, Calendar.years, List.contains_eq_mem, List.mem_cons, List.not_mem_nil,
    or_false, decide_eq_true_eq, Calendar.firstYear, Calendar.latestYear]
  omega

theorem isMonth_int_iff {n : Int} : Calendar.isMonth (.int n) = true ↔ 1 ≤ n ∧ n ≤ 12 := by
  simp only [Calendar.isMonth, Calendar.months, List.contains_eq_mem, List.mem_cons,
    List.not_mem_nil, or_false, decide_eq_true_eq]
  omega

theorem isRowLimit_int_iff {n : Int} : isRowLimit (.int n) = true ↔ 1 ≤ n ∧ n ≤ 500 := by
  rw [isRowLimit, Bool.and_eq_true, decide_eq_true_eq, decide_eq_true_eq, Reader.maxRows]

theorem intOf?_int_eq_none_iff {accepts : Value → Bool} {n : Int} :
    intOf? accepts (.int n) = none ↔ ¬accepts (.int n) = true := by
  simp [intOf?]

/-- Exactly the values that are not accepted are ignored, so to accept a value is to keep it. -/
theorem Inferred.pick_eq_none_iff (f : Inferred) (v : Value) : f.pick v = none ↔ ¬f.Accepts v := by
  -- A value of another kind than the accepted ones is ignored as it is.
  cases f with
  | dimension =>
    cases v with
    | text s => exact nameOf?_text_eq_none_iff
    | _ => exact iff_of_true rfl id
  | metric =>
    cases v with
    | text s => exact nameOf?_text_eq_none_iff
    | _ => exact iff_of_true rfl id
  | type =>
    cases v with
    | text s =>
      have words : Vocabulary.words PropertyType = ["apartment", "house"] := rfl
      exact ofValue?_text_eq_none_iff.trans (by simp [words, Accepts])
    | _ => exact iff_of_true rfl id
  | order =>
    cases v with
    | text s =>
      have words : Vocabulary.words SortOrder = ["asc", "desc"] := rfl
      exact ofValue?_text_eq_none_iff.trans (by simp [words, Accepts])
    | _ => exact iff_of_true rfl id
  | year =>
    cases v with
    | int n => exact intOf?_int_eq_none_iff.trans (not_congr isYear_int_iff)
    | _ => exact iff_of_true rfl id
  | month =>
    cases v with
    | int n => exact intOf?_int_eq_none_iff.trans (not_congr isMonth_int_iff)
    | _ => exact iff_of_true rfl id
  | limit =>
    cases v with
    | int n => exact intOf?_int_eq_none_iff.trans (not_congr isRowLimit_int_iff)
    | _ => exact iff_of_true rfl id

/-! ### Two intents that differ in one field

Whether an intent is accepted is up to the fields that have to fit, and which state it becomes is up
to those and the inferred ones. A write into an inferred field leaves the former alone. -/

/-- The fields that have to fit. -/
def strictKeys : List Key := [Key.inseeCodes, Key.sections, Key.filters, minSalesKey]

theorem Inferred.apart_strict (f : Inferred) : ∀ key ∈ strictKeys, key.Apart f.key := by
  cases f <;> decide

theorem Inferred.apart {f g : Inferred} (h : g ≠ f) : g.key.Apart f.key := by
  revert h
  cases f <;> cases g <;> decide

/-- The reading of an intent depends on how its record gives the fields, and on nothing else. -/
theorem ofRecord_congr {r r' : Record} (strict : ∀ key ∈ strictKeys, key.SameIn r r')
    (inferred : ∀ f : Inferred, lenient f.key f.pick r' = lenient f.key f.pick r) :
    ofRecord r' = ofRecord r := by
  have codes : Key.inseeCodes.SameIn r r' := strict _ (by decide)
  have sections : Key.sections.SameIn r r' := strict _ (by decide)
  have filters : Key.filters.SameIn r r' := strict _ (by decide)
  have minSales : minSalesKey.SameIn r r' := strict _ (by decide)
  have dimension : lenient dimensionKey dimension? r' = lenient dimensionKey dimension? r :=
    inferred .dimension
  have metric : lenient Key.metric metric? r' = lenient Key.metric metric? r := inferred .metric
  have type : lenient Key.propertyType (Vocabulary.ofValue? (α := PropertyType)) r' =
      lenient Key.propertyType Vocabulary.ofValue? r := inferred .type
  have year : lenient Key.year year? r' = lenient Key.year year? r := inferred .year
  have month : lenient Key.month month? r' = lenient Key.month month? r := inferred .month
  have limit : lenient Key.limit limit? r' = lenient Key.limit limit? r := inferred .limit
  have order : lenient Key.sortOrder (Vocabulary.ofValue? (α := SortOrder)) r' =
      lenient Key.sortOrder Vocabulary.ofValue? r := inferred .order
  rw [ofRecord, ofRecord, codes.withDefault_eq, sections.withDefault_eq, filters.withDefault_eq,
    minSales.withDefault_eq, dimension, metric, type, year, month, limit, order]

/-- An ignored value might as well be null, and so might one that is not given. The record that is
compared with has the null under the name that the field is given by. -/
theorem ofRecord_put_null {f : Inferred} {r : Record}
    (ignored : ∀ v, f.key.find? r = some v → ¬f.Accepts v) :
    ofRecord (r.put (f.key.given r) .null) = ofRecord r := by
  refine ofRecord_congr (fun key hkey => (f.apart_strict key hkey).sameIn r .null) fun g => ?_
  by_cases same : g = f
  · subst same
    have null : g.pick .null = none := (g.pick_eq_none_iff .null).2 (by cases g <;> exact id)
    have before : lenient g.key g.pick r = none :=
      Option.bind_eq_none_iff.2 fun v hv => (g.pick_eq_none_iff v).2 (ignored v hv)
    rw [before, lenient, Key.find?_put_given, Option.bind_some, null]
  · exact ((Inferred.apart same).sameIn r .null).lenient_eq _

/-- The issues of an intent are those of the fields that have to fit. -/
theorem ofRecord_invalid_iff {r r' : Record} (strict : ∀ key ∈ strictKeys, key.SameIn r r')
    (issues : List Issue) : ofRecord r' = .invalid issues ↔ ofRecord r = .invalid issues := by
  have codes : Key.inseeCodes.SameIn r r' := strict _ (by decide)
  have sections : Key.sections.SameIn r r' := strict _ (by decide)
  have filters : Key.filters.SameIn r r' := strict _ (by decide)
  have minSales : minSalesKey.SameIn r r' := strict _ (by decide)
  rw [ofRecord, ofRecord, codes.withDefault_eq, sections.withDefault_eq, filters.withDefault_eq,
    minSales.withDefault_eq]
  exact Checked.invalid_congr _ _ _ _ _ _ _

end UserIntent

/-- An intent fails with the issues of its reading, and in no other way. -/
theorem FilterState.ofIntent_eq_error_iff {v : Value} {fault : Fault} :
    ofIntent v = .error fault ↔
      ∃ issues, UserIntent.read v = .invalid issues ∧ fault = .invalid "UserIntent" issues := by
  unfold ofIntent
  cases UserIntent.read v with
  | valid i => simp [Checked.orFault, Except.map]
  | invalid issues => simp [Checked.orFault, Except.map, eq_comm]

/-- **To ignore a value is to omit it.** A field whose value it does not accept, or that is not
given, might as well be null: the outcome is the same, be it a state or the issues of the intent.
And whatever is written into the field, an intent fails only if it did before, with the same
issues. -/
theorem FilterState.ofIntent_put (f : UserIntent.Inferred) (r : Record) :
    ((∀ v, f.key.find? r = some v → ¬f.Accepts v) →
      ofIntent (.record (r.put (f.key.given r) .null)) = ofIntent (.record r)) ∧
    ∀ v fault, ofIntent (.record (r.put (f.key.given r) v)) = .error fault ↔
      ofIntent (.record r) = .error fault := by
  refine ⟨fun ignored => ?_, fun v fault => ?_⟩
  · have read : UserIntent.read (.record (r.put (f.key.given r) .null)) =
        UserIntent.read (.record r) := UserIntent.ofRecord_put_null ignored
    rw [ofIntent, ofIntent, read]
  · have strict : ∀ key ∈ UserIntent.strictKeys, key.SameIn r (r.put (f.key.given r) v) :=
      fun key hkey => (f.apart_strict key hkey).sameIn r v
    rw [ofIntent_eq_error_iff, ofIntent_eq_error_iff]
    exact exists_congr fun issues => and_congr_left' (UserIntent.ofRecord_invalid_iff strict issues)

/-- A property type that is a list is ignored, also where the intent fails for another field. -/
theorem FilterState.ofIntent_put_listedType :
    UserIntent.Inferred.type.key.find? [("property_type", .list []), ("minSales", .int (-1))] =
        some (.list []) ∧
      ¬UserIntent.Inferred.type.Accepts (.list []) ∧
      ofIntent (.record [("property_type", .null), ("minSales", .int (-1))]) =
        ofIntent (.record [("property_type", .list []), ("minSales", .int (-1))]) ∧
      ofIntent (.record [("property_type", .null), ("minSales", .int (-1))]) =
        .error (.invalid "UserIntent" [⟨[.key "minSales"], .below 0⟩]) := by
  have found : UserIntent.Inferred.type.key.find?
      [("property_type", .list []), ("minSales", .int (-1))] = some (.list []) := rfl
  have rejected : ¬UserIntent.Inferred.type.Accepts (.list []) := id
  have ignored : ∀ v, UserIntent.Inferred.type.key.find?
      [("property_type", .list []), ("minSales", .int (-1))] = some v →
      ¬UserIntent.Inferred.type.Accepts v := by
    intro v hv
    obtain rfl : .list [] = v := Option.some.inj (found.symm.trans hv)
    exact rejected
  exact ⟨found, rejected, (ofIntent_put .type _).1 ignored, rfl⟩

end PropertyMarket
