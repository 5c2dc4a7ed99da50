import PropertyMarket.Proofs.Replies

/-!
# What an intent has to get right

An intent is accepted or refused as a whole, and only four of its fields have a say in that: the
commune codes, the sections, the filters and the least number of sales. Each of them has a form
that is written down here without reference to how it is read, and an intent is accepted exactly if
each of the four has its form or is not given.

A reading that is joined of other readings has a value exactly if all of them have one. So the
question goes down, part by part, to single values, where the forms are compared with what is read.

## Main definitions

* `Checked.IsValid` — a reading has a value
* `NumericFilter.WellFormed` — the form of a filter
* `UserIntent.CodesFit`, `FiltersFit`, `MinSalesFits` — the forms of the four fields
* `UserIntent.Fits` — all four fields have their form

## Main results

* `Checked.isValid_seq`, `Checked.isValid_eachFrom` and their like — part by part
* `NumericFilter.isValid_read` — a filter is read exactly if it has its form
* `FilterState.ofIntent_refused_iff` — which intents are refused

## Implementation notes

`Checked.IsValid` forgets what a reading has read and which issues it has, and keeps whether there
is a value. It distributes over the ways in which readings are joined, as equivalences that
simplification can use, so that the acceptance of an intent unfolds into the acceptance of its
fields without following the errors. Which error is reported, and where, is not the subject here.
-/

namespace PropertyMarket

/-! ### Readings that have a value

One lemma for each way of making a reading from others. A reading of several parts goes on after the
first fault, but has a value only if no part has a fault. -/

namespace Checked

variable {α β : Type}

/-- The reading has a value, so there is no issue with it. -/
def IsValid (x : Checked α) : Prop := ∃ a, x = valid a

@[simp] theorem isValid_valid (a : α) : (valid a).IsValid := ⟨a, rfl⟩

@[simp] theorem not_isValid_invalid (issues : List Issue) :
    ¬(invalid issues : Checked α).IsValid := by
  rintro ⟨a, h⟩
  nomatch h

@[simp] theorem not_isValid_refuse (cause : Issue.Cause) : ¬(refuse cause : Checked α).IsValid :=
  not_isValid_invalid _

@[simp] theorem isValid_map (f : α → β) (x : Checked α) : (f <$> x).IsValid ↔ x.IsValid := by
  cases x with
  | valid a => exact iff_of_true (isValid_valid (f a)) (isValid_valid a)
  | invalid issues => exact iff_of_false (not_isValid_invalid issues) (not_isValid_invalid issues)

/-- Joined readings have a value exactly if each has one, although all of their issues are
collected. -/
@[simp] theorem isValid_seq (f : Checked (α → β)) (x : Checked α) :
    (f <*> x).IsValid ↔ f.IsValid ∧ x.IsValid := by
  constructor
  · rintro ⟨b, h⟩
    obtain ⟨g, a, hg, ha, -⟩ := seq_eq_valid.1 h
    exact ⟨⟨g, hg⟩, a, ha⟩
  · rintro ⟨⟨g, rfl⟩, a, rfl⟩
    exact isValid_valid (g a)

@[simp] theorem isValid_under (step : Issue.Step) (x : Checked α) :
    (x.under step).IsValid ↔ x.IsValid := by
  cases x with
  | valid a => exact Iff.rfl
  | invalid issues => exact iff_of_false (not_isValid_invalid _) (not_isValid_invalid issues)

theorem isValid_andThen (x : Checked α) (f : α → Checked β) :
    (x.andThen f).IsValid ↔ ∃ a, x = valid a ∧ (f a).IsValid := by
  constructor
  · rintro ⟨b, h⟩
    obtain ⟨a, ha, hb⟩ := andThen_eq_valid h
    exact ⟨a, ha, b, hb⟩
  · rintro ⟨a, rfl, h⟩
    exact h

/-- All items of a list are read exactly if each of them is; the numbers of the items only matter
for the issues. -/
theorem isValid_eachFrom (read : α → Checked β) (first : Nat) (xs : List α) :
    (eachFrom read first xs).IsValid ↔ ∀ x ∈ xs, (read x).IsValid := by
  induction xs generalizing first with
  | nil => simp [eachFrom]
  | cons x xs ih => simp [eachFrom, ih]

/-- Items that are read as what they are made of. -/
theorem eachFrom_eq_valid_iff {read : α → Checked β} {make : β → α}
    (h : ∀ x b, read x = valid b ↔ x = make b) {first : Nat} {xs : List α} {ys : List β} :
    eachFrom read first xs = valid ys ↔ xs = ys.map make := by
  induction xs generalizing first ys with
  | nil => simp [eachFrom, eq_comm]
  | cons x xs ih =>
    constructor
    · intro hread
      obtain ⟨_, rest, hfirst, hrest, rfl⟩ := seq_eq_valid.1 hread
      obtain ⟨y, hy, rfl⟩ := map_eq_valid hfirst
      rw [List.map_cons, ← (h x y).1 (under_eq_valid hy), ← ih.1 hrest]
    · intro hxs
      obtain ⟨y, rest, rfl, rfl, hrest⟩ := List.map_eq_cons_iff.1 hxs.symm
      rw [eachFrom, (h (make y) y).2 rfl, ih.2 hrest.symm]
      rfl

/-- Named values keep their names when they are read. -/
theorem names_of_eachNamed {read : α → Checked β} {fields : List (String × α)}
    {named : List (String × β)} (h : eachNamed read fields = valid named) :
    named.map (·.1) = fields.map (·.1) := by
  induction fields generalizing named with
  | nil =>
    obtain rfl : [] = named := by injection h
    rfl
  | cons field rest ih =>
    obtain ⟨_, ys, hfirst, hrest, rfl⟩ := seq_eq_valid.1 h
    obtain ⟨y, -, rfl⟩ := map_eq_valid hfirst
    rw [List.map_cons, List.map_cons, ih hrest]

/-- All named values are read exactly if each of them is. -/
theorem isValid_eachNamed (read : α → Checked β) (fields : List (String × α)) :
    (eachNamed read fields).IsValid ↔ ∀ f ∈ fields, (read f.2).IsValid := by
  induction fields with
  | nil => simp [eachNamed]
  | cons field rest ih => simp [eachNamed, ih]

end Checked

open Checked

section

variable {α : Type} {read : Value → Checked α}

/-- A field that need not be given is read exactly if what is given is. -/
theorem Key.isValid_withDefault (key : Key) (standard : α) (r : Record) :
    (key.withDefault standard read r).IsValid ↔ ∀ v, key.find? r = some v → (read v).IsValid := by
  unfold withDefault
  cases key.find? r with
  | none => simp
  | some v => simp

theorem Key.find?_plain (name : String) (r : Record) : (plain name).find? r = r.get? name := by
  unfold find? plain
  split
  · next found => exact found.symm
  · rfl

/-- A field under one name that has to be given is the reading of what is given there. -/
theorem Key.required_plain_eq_valid_iff {name : String} {r : Record} {a : α} :
    (plain name).required read r = .valid a ↔ ∃ v, r.get? name = some v ∧ read v = .valid a := by
  unfold required
  rw [find?_plain]
  cases r.get? name with
  | none => simp
  | some v =>
    constructor
    · intro h
      exact ⟨v, rfl, under_eq_valid h⟩
    · rintro ⟨w, same, h⟩
      obtain rfl := Option.some.inj same
      dsimp only
      rw [h, under_valid]

theorem Reader.isValid_nullable (v : Value) :
    (nullable read v).IsValid ↔ v = .null ∨ (read v).IsValid := by
  cases v with
  | null => simp [nullable]
  | _ => simp [nullable]

end

theorem Reader.text_eq_valid_iff (v : Value) (s : String) :
    text v = .valid s ↔ v = .text s := by
  cases v <;> simp [text, refuse]

/-- The member that a value names is the one whose word it is. -/
theorem Vocabulary.ofValue?_eq_some_iff {α : Type} [Vocabulary α] {v : Value} {a : α} :
    ofValue? v = some a ↔ v = .ofWord a := by
  cases v with
  | text s =>
    rw [ofValue?, ofWord?_eq_some_iff, Value.ofWord, Value.text.injEq]
    exact eq_comm
  | _ => simp [ofValue?, Value.ofWord]

theorem Reader.word_eq_valid_iff {α : Type} [Vocabulary α] (v : Value) (a : α) :
    word α v = .valid a ↔ v = .ofWord a := by
  rw [← Vocabulary.ofValue?_eq_some_iff, word]
  cases (Vocabulary.ofValue? v : Option α) <;> simp [refuse]

/-! ### Filters of metrics

A filter is a record with an operation and a value. The operation decides whether the value has to
be one number or a list of two, so neither field can be judged alone. -/

/-- A number that is given as one, and not as a truth value. -/
def Value.IsAmount : Value → Prop
  | .int _ | .double _ | .decimal _ => True
  | _ => False

namespace NumericFilter

/-- A filter of a metric: a record with an operation, and with one number, or with two of them if
the operation is `between`. -/
def WellFormed : Value → Prop
  | .record r => ∃ operation operand, Record.get? r "operation" = some (.text operation) ∧
      Record.get? r "value" = some operand ∧
      (((operation = "gte" ∨ operation = "lte") ∧ operand.IsAmount) ∨
        (operation = "between" ∧
          ∃ low high, operand = .list [low, high] ∧ low.IsAmount ∧ high.IsAmount))
  | _ => False

theorem isValid_readAmount (v : Value) : (Amount.read v).IsValid ↔ v.IsAmount := by
  cases v <;> simp [Amount.read, Amount.ofValue?, Value.IsAmount]

/-- An operand that goes with `gte` and `lte` is a number. -/
theorem readOperand_one_iff (v : Value) : (∃ a, readOperand v = .valid (.one a)) ↔ v.IsAmount := by
  cases v with
  | list items =>
    refine iff_of_false ?_ id
    rintro ⟨a, h⟩
    unfold readOperand at h
    dsimp only [Amount.ofValue?] at h
    split at h <;> nomatch h
  | _ => simp [readOperand, Amount.ofValue?, Value.IsAmount, Reader.list, refuse]

/-- An operand that goes with `between` is a list of two numbers. -/
theorem readOperand_two_iff (v : Value) : (∃ a b, readOperand v = .valid (.many [a, b])) ↔
    ∃ low high, v = .list [low, high] ∧ low.IsAmount ∧ high.IsAmount := by
  constructor
  · rintro ⟨a, b, h⟩
    cases v with
    | list items =>
      unfold readOperand at h
      dsimp only [Amount.ofValue?] at h
      split at h
      · next amounts each_read =>
        obtain rfl : amounts = [a, b] := by simpa using h
        have two : items.length = 2 := (length_of_eachFrom each_read).symm
        obtain ⟨low, high, rfl⟩ := List.length_eq_two.1 two
        have numbers := (isValid_eachFrom Amount.read 0 [low, high]).1 ⟨_, each_read⟩
        refine ⟨low, high, rfl, ?_, ?_⟩
        · exact (isValid_readAmount low).1 (numbers low (by simp))
        · exact (isValid_readAmount high).1 (numbers high (by simp))
      · nomatch h
    | _ => simp [readOperand, Amount.ofValue?, Reader.list, refuse] at h
  · rintro ⟨low, high, rfl, hlow, hhigh⟩
    obtain ⟨a, ha⟩ := (isValid_readAmount low).2 hlow
    obtain ⟨b, hb⟩ := (isValid_readAmount high).2 hhigh
    refine ⟨a, b, ?_⟩
    simp [readOperand, Amount.ofValue?, Reader.list, each, eachFrom, ha, hb]

/-- Operations go with the operands of their own kind. -/
theorem isValid_combine (o : Operation) (operand : Operand) : (combine o operand).IsValid ↔
    ((o = .gte ∨ o = .lte) ∧ ∃ a, operand = .one a) ∨
      (o = .between ∧ ∃ a b, operand = .many [a, b]) := by
  unfold combine
  split <;> simp_all

/-- **A filter is read exactly if it has its form**: an operation that is known, and the numbers
that go with it. -/
theorem isValid_read (v : Value) : (read v).IsValid ↔ WellFormed v := by
  cases v with
  | record r =>
    show (ofRecord r).IsValid ↔ _
    unfold ofRecord
    rw [isValid_andThen]
    constructor
    · rintro ⟨⟨o, operand⟩, hpair, hcombine⟩
      obtain ⟨_, _, hfirst, hsecond, same⟩ := seq_eq_valid.1 hpair
      obtain ⟨_, htag, rfl⟩ := map_eq_valid hfirst
      obtain ⟨rfl, rfl⟩ := Prod.mk.inj same
      obtain ⟨_, named, htag⟩ := Key.required_plain_eq_valid_iff.1 htag
      obtain ⟨v, given, hoperand⟩ := Key.required_plain_eq_valid_iff.1 hsecond
      obtain rfl := (Reader.word_eq_valid_iff _ _).1 htag
      refine ⟨_, v, named, given, ?_⟩
      obtain ⟨single, a, rfl⟩ | ⟨rfl, a, b, rfl⟩ := (isValid_combine _ _).1 hcombine
      · refine .inl ⟨?_, (readOperand_one_iff v).1 ⟨a, hoperand⟩⟩
        obtain rfl | rfl := single
        · exact .inl rfl
        · exact .inr rfl
      · exact .inr ⟨rfl, (readOperand_two_iff v).1 ⟨a, b, hoperand⟩⟩
    · rintro ⟨name, v, named, given, form⟩
      -- The operation that the name names, and the operand that goes with it.
      obtain ⟨o, operand, rfl, hoperand, fitting⟩ : ∃ o operand,
          name = Vocabulary.word o ∧ readOperand v = .valid operand ∧
            (combine o operand).IsValid := by
        obtain ⟨single, amount⟩ | ⟨rfl, two⟩ := form
        · obtain ⟨a, ha⟩ := (readOperand_one_iff v).2 amount
          obtain rfl | rfl := single
          · exact ⟨.gte, _, rfl, ha, isValid_valid _⟩
          · exact ⟨.lte, _, rfl, ha, isValid_valid _⟩
        · obtain ⟨a, b, hab⟩ := (readOperand_two_iff v).2 two
          exact ⟨.between, _, rfl, hab, isValid_valid _⟩
      have htag : (Key.plain "operation").required (Reader.word Operation) r = .valid o :=
        Key.required_plain_eq_valid_iff.2 ⟨_, named, (Reader.word_eq_valid_iff _ o).2 rfl⟩
      have hsecond : (Key.plain "value").required readOperand r = .valid operand :=
        Key.required_plain_eq_valid_iff.2 ⟨v, given, hoperand⟩
      exact ⟨(o, operand), by rw [htag, hsecond]; rfl, fitting⟩
  | _ => exact iff_of_false (not_isValid_refuse _) id

end NumericFilter

/-! ### The fields that have to fit

The forms of the four fields, in terms of values. Null and a field that is not given are accepted by
all four; what else is accepted differs. -/

namespace UserIntent

/-- Codes: null for none, a single text, or a list of at most a hundred texts, and each text as long
as it has to be. -/
def CodesFit (fits : Nat → Prop) : Value → Prop
  | .null => True
  | .text s => fits s.length
  | .list items => ∃ codes : List String, items = codes.map .text ∧ codes.length ≤ 100 ∧
      ∀ s ∈ codes, fits s.length
  | _ => False

/-- Filters: null for none, or a record of filters under the names of metrics, each of which has its
form. -/
def FiltersFit : Value → Prop
  | .null => True
  | .record fields => ∀ f ∈ fields, f.1 ∈ Metric.names ∧ NumericFilter.WellFormed f.2
  | _ => False

/-- A least number of sales: null for none, or an integer that is not negative. No other kind of
number will do. -/
def MinSalesFits : Value → Prop
  | .null => True
  | .int n => 0 ≤ n
  | _ => False

/-- Each of the four fields that have to fit has its form, or is not given. -/
structure Fits (r : Record) : Prop where
  inseeCodes : ∀ v, Key.inseeCodes.find? r = some v → CodesFit (· = 5) v
  sections : ∀ v, Key.sections.find? r = some v → CodesFit (fun n => n = 10 ∨ n = 11) v
  filters : ∀ v, Key.filters.find? r = some v → FiltersFit v
  minSales : ∀ v, minSalesKey.find? r = some v → MinSalesFits v

theorem isValid_checkEach (accepts : String → Bool) (complaint : String) (texts : List String) :
    (checkEach accepts complaint texts).IsValid ↔ ∀ s ∈ texts, accepts s = true := by
  constructor
  · rintro ⟨checked, h⟩
    exact (checkEach_eq_valid h).2
  · intro h
    have none_refused : texts.find? (fun s => !accepts s) = none := by simpa using h
    rw [checkEach, none_refused]
    exact isValid_valid texts

/-- Which texts a value stands for. -/
theorem readTexts_list_iff (items : List Value) (texts : List String) :
    readTexts (.list items) = .valid texts ↔
      items = texts.map .text ∧ texts.length ≤ maxLocations := by
  show Reader.listUpTo maxLocations Reader.text (.list items) = _ ↔ _
  rw [Reader.listUpTo]
  split
  · next long =>
    refine iff_of_false (by simp [refuse]) ?_
    rintro ⟨rfl, few⟩
    rw [List.length_map] at long
    omega
  · next few =>
    rw [each, eachFrom_eq_valid_iff Reader.text_eq_valid_iff, iff_self_and]
    rintro rfl
    rwa [List.length_map, Nat.not_lt] at few

/-- Codes are read exactly if they have their form. -/
theorem isValid_readCodes {accepts : String → Bool} {fits : Nat → Prop}
    (h : ∀ s, accepts s = true ↔ fits s.length) (complaint : String) (v : Value) :
    ((readTexts v).andThen (checkEach accepts complaint)).IsValid ↔ CodesFit fits v := by
  rw [isValid_andThen]
  simp only [isValid_checkEach, h]
  cases v with
  | list items => simp only [readTexts_list_iff, CodesFit, maxLocations, and_assoc]
  | _ => simp [readTexts, CodesFit, Reader.listUpTo, refuse]

/-- Filters pass the check exactly if all of them are filters of metrics. -/
theorem isValid_checkFilters (filters : List (String × NumericFilter)) :
    (checkFilters filters).IsValid ↔ ∀ name ∈ filters.map (·.1), name ∈ Metric.names := by
  have passes : (checkFilters filters).IsValid ↔ strangers filters = [] := by
    unfold checkFilters
    split <;> simp_all
  rw [passes, strangers, List.eq_nil_iff_forall_not_mem]
  simp only [List.mem_mergeSort, List.mem_filter]
  simp

/-- Filters are read exactly if they have their form. -/
theorem isValid_readFilters (v : Value) :
    (Reader.nullable readFilters v).IsValid ↔ FiltersFit v := by
  rw [Reader.isValid_nullable]
  cases v with
  | null => exact iff_of_true (.inl rfl) trivial
  | record fields =>
    have readable : (readFilters (.record fields)).IsValid ↔
        (eachNamed NumericFilter.read fields).IsValid ∧ ∀ f ∈ fields, f.1 ∈ Metric.names := by
      rw [readFilters, isValid_andThen]
      constructor
      · rintro ⟨named, hnamed, known⟩
        rw [isValid_checkFilters, names_of_eachNamed hnamed] at known
        exact ⟨⟨named, hnamed⟩, fun f hf => known _ (List.mem_map_of_mem hf)⟩
      · rintro ⟨⟨named, hnamed⟩, known⟩
        refine ⟨named, hnamed, ?_⟩
        rw [isValid_checkFilters, names_of_eachNamed hnamed, List.forall_mem_map]
        exact known
    rw [readable, isValid_eachNamed]
    simp only [NumericFilter.isValid_read, FiltersFit, reduceCtorEq, false_or]
    rw [and_comm, ← forall₂_and]
  | _ => simp [readFilters, Reader.named, FiltersFit, andThen, refuse]

/-- The least number of sales is read exactly if it has its form. -/
theorem isValid_readMinSales (v : Value) :
    (Reader.nullable (Reader.intWithin 0 none Reader.strictInt) v).IsValid ↔ MinSalesFits v := by
  rw [Reader.isValid_nullable]
  cases v with
  | int n =>
    have reading : Reader.intWithin 0 none Reader.strictInt (.int n) =
      if n < 0 then refuse (.below 0) else valid n := rfl
    rw [reading]
    split
    · next negative => simp [MinSalesFits, Int.not_le.2 negative]
    · next bounded => simp [MinSalesFits, Int.not_lt.1 bounded]
  | _ => simp [Reader.intWithin, Reader.strictInt, andThen, refuse, MinSalesFits]

/-- A record is read as an intent exactly if the fields that have to fit do. -/
theorem isValid_ofRecord (r : Record) : (ofRecord r).IsValid ↔ Fits r := by
  unfold ofRecord
  simp only [isValid_seq, isValid_map, Key.isValid_withDefault]
  have codes (v : Value) : (readInseeCodes v).IsValid ↔ CodesFit (· = 5) v :=
    isValid_readCodes (by simp [inseeCodeLength]) _ v
  have sections (v : Value) : (readSections v).IsValid ↔ CodesFit (fun n => n = 10 ∨ n = 11) v :=
    isValid_readCodes (by simp [isSectionLength]) _ v
  simp only [codes, sections, isValid_readFilters, isValid_readMinSales]
  constructor
  · rintro ⟨⟨⟨hcodes, hsections⟩, hfilters⟩, hminSales⟩
    exact ⟨hcodes, hsections, hfilters, hminSales⟩
  · rintro ⟨hcodes, hsections, hfilters, hminSales⟩
    exact ⟨⟨⟨hcodes, hsections⟩, hfilters⟩, hminSales⟩

end UserIntent

/-- **Which intents are refused.** An intent is refused as such exactly if one of the fields that
have to fit does not have its form; in every other case it becomes a state. The other fields have no
say in it. -/
theorem FilterState.ofIntent_refused_iff (r : Record) :
    ((∃ issues, ofIntent (.record r) = .error (.invalid "UserIntent" issues)) ↔
      ¬UserIntent.Fits r) ∧
    (UserIntent.Fits r → ∃ s, ofIntent (.record r) = .ok s) := by
  rw [← UserIntent.isValid_ofRecord]
  show ((∃ issues, ((UserIntent.ofRecord r).orFault "UserIntent").map UserIntent.toState =
      .error (.invalid "UserIntent" issues)) ↔ _) ∧
    (_ → ∃ s, ((UserIntent.ofRecord r).orFault "UserIntent").map UserIntent.toState = .ok s)
  cases UserIntent.ofRecord r with
  | valid i => simp [orFault, Except.map]
  | invalid issues => simp [orFault, Except.map]

end PropertyMarket
