import PropertyMarket.Proofs.PercentText
import PropertyMarket.Proofs.Strictness

/-!
# Reading back

A request is read leniently: a text may stand for a number, a truth value for an integer, and what
is not given has a value of its own. What is written of a request is no longer in need of any of
this, so it is read as the same request, and reading and writing once more changes nothing.

Whether a reading has this property is a question about its parts. It passes from values to lists
and records of them, to values that may be null, and to values that are checked, as a check does
not change what it lets pass. A default need not be what the reading accepts; it is asked of each
of them that it is. The names of the fields are settled last, for the names with humps and those
with underscores alike: a record that is written has each field once.

## Main definitions

* `ReadsBack` — what has been read is read again from what is written of it

## Main results

* `ReadsBack.andThen`, `ReadsBack.nullable`, `ReadsBack.list`, `ReadsBack.named` — readings that are
  made of others
* `ReadsBack.withDefault`, `ReadsBack.required` — the fields of a record
* `FilterState.readsBack` and its like — the requests one by one
* `requests_read_back` — all of them

## Implementation notes

Each combinator of readings has a lemma of its own, so that the proof for a model follows its
reading line by line: one step for each field, given how the value of the field is read back. What
differs between the models is which fields they have, and that they are all found again under their
names, which is decided by evaluating the look-ups.
-/

namespace PropertyMarket

open Checked

/-- What has been read is read again from what is written of it. Of values that are not read nothing
is asked, so a reading may be as lenient as it likes. -/
def ReadsBack {α : Type} (read : Value → Checked α) (write : α → Value) : Prop :=
  ∀ v a, read v = .valid a → read (write a) = .valid a

section Readings

variable {α : Type} {read : Value → Checked α} {write : α → Value}

/-- It is enough that whatever is written is read. -/
theorem ReadsBack.of_forall (h : ∀ a, read (write a) = .valid a) : ReadsBack read write :=
  fun _ a _ => h a

/-- A check lets pass what it has let pass, so a reader that is followed by a check reads back what
the reader does. -/
theorem ReadsBack.andThen (h : ReadsBack read write) {check : α → Checked α}
    (unchanged : ∀ a b, check a = .valid b → a = b) :
    ReadsBack (fun v => (read v).andThen check) write := by
  intro v b hb
  obtain ⟨a, ha, hcheck⟩ := andThen_eq_valid hb
  obtain rfl := unchanged a b hcheck
  dsimp only
  rw [h v a ha]
  exact hcheck

theorem ReadsBack.nullable (h : ReadsBack read write) {writeNull : Option α → Value}
    (none_eq : writeNull none = .null) (some_eq : ∀ a, writeNull (some a) = write a)
    (ne_null : ∀ a, write a ≠ .null) : ReadsBack (Reader.nullable read) writeNull := by
  intro v o ho
  cases o with
  | none => rw [none_eq, Reader.nullable]
  | some a =>
    have back := h v a (Reader.nullable_eq_some ho)
    rw [some_eq]
    cases written : write a with
    | null => exact absurd written (ne_null a)
    | _ =>
      rw [written] at back
      rw [Reader.nullable, back, map_valid]
      exact Value.noConfusion

/-- Items that are read again one by one. -/
theorem Checked.eachFrom_map {items : List α} (h : ∀ a ∈ items, read (write a) = .valid a)
    (first : Nat) : eachFrom read first (items.map write) = .valid items := by
  induction items generalizing first with
  | nil => rfl
  | cons a items ih =>
    obtain ⟨head, rest⟩ := List.forall_mem_cons.1 h
    rw [List.map_cons, eachFrom, head, ih rest]
    rfl

theorem Reader.exists_of_mem_list {v : Value} {items : List α} (h : list read v = .valid items) :
    ∀ a ∈ items, ∃ v, read v = .valid a := by
  cases v with
  | list values =>
    intro a ha
    obtain ⟨v, -, hv⟩ := exists_of_mem_each h a ha
    exact ⟨v, hv⟩
  | _ => nomatch h

theorem ReadsBack.list (h : ReadsBack read write) :
    ReadsBack (Reader.list read) fun items => .list (items.map write) := by
  intro v items hread
  refine eachFrom_map (fun a ha => ?_) 0
  obtain ⟨v, hv⟩ := Reader.exists_of_mem_list hread a ha
  exact h v a hv

theorem ReadsBack.nonEmpty (h : ReadsBack read write) :
    ReadsBack (Reader.nonEmpty read) fun items => .list (items.map write) := by
  refine h.list.andThen fun items items' hcheck => ?_
  split at hcheck
  · nomatch hcheck
  · injection hcheck

/-- Named values that are read again one by one. -/
theorem ReadsBack.eachNamed (h : ReadsBack read write) {given : Record}
    {fields : List (String × α)} (hread : Checked.eachNamed read given = .valid fields) :
    Checked.eachNamed read (fields.map fun field => (field.1, write field.2)) = .valid fields := by
  induction given generalizing fields with
  | nil =>
    obtain rfl : [] = fields := by injection hread
    rfl
  | cons field given ih =>
    obtain ⟨_, rest, hfirst, hrest, rfl⟩ := seq_eq_valid.1 hread
    obtain ⟨a, ha, rfl⟩ := map_eq_valid hfirst
    rw [List.map_cons, Checked.eachNamed, h _ a (under_eq_valid ha), ih hrest]
    rfl

theorem ReadsBack.named (h : ReadsBack read write) :
    ReadsBack (Reader.named read) fun fields =>
      .record (fields.map fun field => (field.1, write field.2)) := by
  intro v fields hread
  cases v with
  | record given => exact h.eachNamed hread
  | _ => nomatch hread

/-- Models read records. -/
theorem ReadsBack.model {name : String} {ofRecord : Record → Checked α} {toRecord : α → Record}
    (h : ∀ r a, ofRecord r = .valid a → ofRecord (toRecord a) = .valid a) :
    ReadsBack (Reader.model name ofRecord) fun a => .record (toRecord a) := by
  intro v a ha
  cases v with
  | record r => exact h r a ha
  | _ => nomatch ha

theorem Value.ofRecords_map (toRecord : α → Record) (items : List α) :
    ofRecords (items.map toRecord) = .list (items.map fun a => .record (toRecord a)) := by
  rw [ofRecords, List.map_map]
  rfl

theorem ReadsBack.records {toRecord : α → Record}
    (h : ReadsBack read fun a => .record (toRecord a)) :
    ReadsBack (Reader.list read) fun items => .ofRecords (items.map toRecord) := by
  simpa only [Value.ofRecords_map] using h.list

theorem ReadsBack.someRecords {toRecord : α → Record}
    (h : ReadsBack read fun a => .record (toRecord a)) :
    ReadsBack (Reader.nonEmpty read) fun items => .ofRecords (items.map toRecord) := by
  simpa only [Value.ofRecords_map] using h.nonEmpty

/-! ### Fields

A field may be left out, and then has its default. What is written has every field, so reading it
again does not fall back to a default; the default itself has to be readable for that. -/

variable {key : Key} {r : Record} {a standard : α}

/-- A field that is given as it is written is read as before, be it the default or not. -/
theorem ReadsBack.withDefault (h : ReadsBack read write)
    (own : read (write standard) = .valid standard)
    (before : key.withDefault standard read r = .valid a) (d : Record)
    (found : key.find? d = some (write a)) : key.withDefault standard read d = .valid a := by
  have again : read (write a) = .valid a := by
    obtain rfl | ⟨v, hv⟩ := Key.withDefault_eq_valid before
    · exact own
    · exact h v a hv
  rw [Key.withDefault, found]
  dsimp only
  rw [again, under_valid]

theorem ReadsBack.required (h : ReadsBack read write) (before : key.required read r = .valid a)
    (d : Record) (found : key.find? d = some (write a)) : key.required read d = .valid a := by
  obtain ⟨v, hv⟩ := Key.required_eq_valid before
  rw [Key.required, found]
  dsimp only
  rw [h v a hv, under_valid]

end Readings

/-! ### Values

The readings of single values. Most of them accept more than they write; what they write they accept
as it is. -/

namespace Reader

theorem readsBack_text : ReadsBack text .text := .of_forall fun _ => rfl

theorem readsBack_int : ReadsBack int .int := .of_forall fun _ => rfl

theorem readsBack_double : ReadsBack double .double := .of_forall fun _ => rfl

theorem readsBack_word (α : Type) [Vocabulary α] : ReadsBack (word α) .ofWord :=
  .of_forall fun a => (word_eq_valid_iff _ a).2 rfl

theorem readsBack_member (α : Type) [Vocabulary α] : ReadsBack (member α) .ofWord :=
  .of_forall fun a => by rw [member, Vocabulary.ofValue?_eq_some_iff.2 rfl]; rfl

/-- Whatever the text, the truth value or the number was, what is left is an integer within the
bounds. -/
theorem readsBack_intWithin (low : Int) (high : Option Int) :
    ReadsBack (intWithin low high int) .int := by
  refine readsBack_int.andThen fun n m h => ?_
  split at h
  · nomatch h
  split at h
  · split at h
    · nomatch h
    · injection h
  · injection h

theorem readsBack_rowLimit : ReadsBack rowLimit .int := readsBack_intWithin 1 (some maxRows)

theorem readsBack_rowOffset : ReadsBack rowOffset .int := readsBack_intWithin 0 none

theorem readsBack_nullableInt : ReadsBack (nullable int) .ofInt? :=
  readsBack_int.nullable rfl (fun _ => rfl) fun _ => Value.noConfusion

theorem readsBack_texts : ReadsBack (list text) .ofTexts := readsBack_text.list

end Reader

/-! ### Fragments

Predicates, sort keys, metrics, filters and computations are records of values, which requests have
lists of. -/

theorem Predicate.readsBack : ReadsBack Predicate.read fun p => .record p.toRecord :=
  .of_forall fun _ => rfl

theorem SortSpec.readsBack : ReadsBack SortSpec.read fun s => .record s.toRecord := by
  refine .of_forall fun s => ?_
  obtain ⟨field, _ | _ | _⟩ := s <;> rfl

theorem MetricSpec.readsBack : ReadsBack MetricSpec.read fun m => .record m.toRecord :=
  .of_forall fun _ => rfl

theorem NumericFilter.readsBack : ReadsBack NumericFilter.read fun f => .record f.toRecord := by
  refine .of_forall fun f => ?_
  cases f with
  | atLeast a | atMost a => cases a <;> rfl
  | between a b => cases a <;> cases b <;> rfl

/-- A number of percent is read again as it is. -/
theorem Computation.readPercent_double {p : Double} (h : p.IsPercent) :
    readPercent (.double p) = .valid p := by
  have within : ¬(!p.le 100) = true ∧ ¬(!Double.le 0 p) = true := by
    simpa [Double.IsPercent] using h
  rw [readPercent, Reader.double, andThen, if_neg within.1, if_neg within.2]

theorem Computation.readsBack : ReadsBack Computation.read fun c => .record c.toRecord := by
  intro v c h
  cases c with
  | pricePerArea => rfl
  | percentile field p =>
    have percent := readPercent_double (isPercent_of_read h)
    have second : (Key.plain "p").required readPercent (percentile field p).toRecord = .valid p :=
      Key.required_plain_eq_valid_iff.2 ⟨_, rfl, percent⟩
    have again :
        percentileOfRecord (percentile field p).toRecord = .valid (percentile field p) := by
      rw [percentileOfRecord, second]
      rfl
    show (percentileOfRecord (percentile field p).toRecord).under _ = _
    rw [again, under_valid]

/-! ### Reads of precomputed relations

The reads of rollups, of yearly comparisons and of slopes. Each of them writes all of its fields,
also those that are at their defaults or null. -/

theorem FilterState.readsBack_field : ReadsBack readField .text := by
  refine Reader.readsBack_text.andThen fun name name' h => ?_
  split at h
  · injection h
  · nomatch h

theorem FilterState.readsBack_month :
    ReadsBack (Reader.nullable (Reader.intWithin 1 (some 12) Reader.int)) .ofInt? :=
  (Reader.readsBack_intWithin 1 (some 12)).nullable rfl (fun _ => rfl) fun _ => Value.noConfusion

theorem FilterState.readsBack_filters :
    ReadsBack (Reader.nullable (Reader.named NumericFilter.read)) filtersValue :=
  NumericFilter.readsBack.named.nullable rfl (fun _ => rfl) fun _ => Value.noConfusion

theorem FilterState.readsBack (naming : Naming) :
    ReadsBack FilterState.read fun p => .record (p.toRecord naming) := by
  refine ReadsBack.model fun r p h => ?_
  -- The fields, each joined to the ones before it.
  obtain ⟨_, _, h₁₁, offset, rfl⟩ := seq_eq_valid.1 h
  obtain ⟨_, _, h₁₀, limit, rfl⟩ := seq_eq_valid.1 h₁₁
  obtain ⟨_, _, h₉, order, rfl⟩ := seq_eq_valid.1 h₁₀
  obtain ⟨_, _, h₈, sortBy, rfl⟩ := seq_eq_valid.1 h₉
  obtain ⟨_, _, h₇, filters, rfl⟩ := seq_eq_valid.1 h₈
  obtain ⟨_, _, h₆, sections, rfl⟩ := seq_eq_valid.1 h₇
  obtain ⟨_, _, h₅, codes, rfl⟩ := seq_eq_valid.1 h₆
  obtain ⟨_, _, h₄, month, rfl⟩ := seq_eq_valid.1 h₅
  obtain ⟨_, _, h₃, year, rfl⟩ := seq_eq_valid.1 h₄
  obtain ⟨_, _, h₂, field, rfl⟩ := seq_eq_valid.1 h₃
  obtain ⟨_, _, h₁, type, rfl⟩ := seq_eq_valid.1 h₂
  obtain ⟨_, level, rfl⟩ := map_eq_valid h₁
  -- Under the names of either style, what is written is found.
  cases naming
  all_goals
    rw [ofRecord,
      (Reader.readsBack_member _).withDefault rfl level _ rfl,
      (Reader.readsBack_member _).withDefault rfl type _ rfl,
      readsBack_field.withDefault rfl field _ rfl,
      Reader.readsBack_int.withDefault rfl year _ rfl,
      readsBack_month.withDefault rfl month _ rfl,
      Reader.readsBack_texts.withDefault rfl codes _ rfl,
      Reader.readsBack_texts.withDefault rfl sections _ rfl,
      readsBack_filters.withDefault rfl filters _ rfl,
      Reader.readsBack_text.withDefault rfl sortBy _ rfl,
      (Reader.readsBack_word _).withDefault rfl order _ rfl,
      Reader.readsBack_rowLimit.withDefault rfl limit _ rfl,
      Reader.readsBack_rowOffset.withDefault rfl offset _ rfl]
    rfl

theorem DeltaParams.readsBack_bound : ReadsBack (Reader.nullable Reader.double) boundValue :=
  Reader.readsBack_double.nullable rfl (fun _ => rfl) fun _ => Value.noConfusion

theorem DeltaParams.readBound_again {key : Key} {r : Record} {bound : Option Double}
    (before : readBound key r = .valid bound) (d : Record)
    (found : key.find? d = some (boundValue bound)) : readBound key d = .valid bound :=
  readsBack_bound.withDefault rfl before d found

theorem DeltaParams.readsBack (naming : Naming) :
    ReadsBack DeltaParams.read fun p => .record (p.toRecord naming) := by
  refine ReadsBack.model fun r p h => ?_
  obtain ⟨_, _, h₁₅, offset, rfl⟩ := seq_eq_valid.1 h
  obtain ⟨_, _, h₁₄, limit, rfl⟩ := seq_eq_valid.1 h₁₅
  obtain ⟨_, _, h₁₃, minPercent, rfl⟩ := seq_eq_valid.1 h₁₄
  obtain ⟨_, _, h₁₂, minDelta, rfl⟩ := seq_eq_valid.1 h₁₃
  obtain ⟨_, _, h₁₁, minBase, rfl⟩ := seq_eq_valid.1 h₁₂
  obtain ⟨_, _, h₁₀, maxCurrent, rfl⟩ := seq_eq_valid.1 h₁₁
  obtain ⟨_, _, h₉, minCurrent, rfl⟩ := seq_eq_valid.1 h₁₀
  obtain ⟨_, _, h₈, order, rfl⟩ := seq_eq_valid.1 h₉
  obtain ⟨_, _, h₇, sortBy, rfl⟩ := seq_eq_valid.1 h₈
  obtain ⟨_, _, h₆, metric, rfl⟩ := seq_eq_valid.1 h₇
  obtain ⟨_, _, h₅, sections, rfl⟩ := seq_eq_valid.1 h₆
  obtain ⟨_, _, h₄, codes, rfl⟩ := seq_eq_valid.1 h₅
  obtain ⟨_, _, h₃, baseYear, rfl⟩ := seq_eq_valid.1 h₄
  obtain ⟨_, _, h₂, year, rfl⟩ := seq_eq_valid.1 h₃
  obtain ⟨_, _, h₁, type, rfl⟩ := seq_eq_valid.1 h₂
  obtain ⟨_, level, rfl⟩ := map_eq_valid h₁
  cases naming
  all_goals
    rw [ofRecord,
      (Reader.readsBack_member _).withDefault rfl level _ rfl,
      (Reader.readsBack_member _).withDefault rfl type _ rfl,
      Reader.readsBack_nullableInt.withDefault rfl year _ rfl,
      Reader.readsBack_nullableInt.withDefault rfl baseYear _ rfl,
      Reader.readsBack_texts.withDefault rfl codes _ rfl,
      Reader.readsBack_texts.withDefault rfl sections _ rfl,
      Reader.readsBack_text.withDefault rfl metric _ rfl,
      (Reader.readsBack_word _).withDefault rfl sortBy _ rfl,
      (Reader.readsBack_word _).withDefault rfl order _ rfl,
      readBound_again minCurrent _ rfl,
      readBound_again maxCurrent _ rfl,
      readBound_again minBase _ rfl,
      readBound_again minDelta _ rfl,
      readBound_again minPercent _ rfl,
      Reader.readsBack_rowLimit.withDefault rfl limit _ rfl,
      Reader.readsBack_rowOffset.withDefault rfl offset _ rfl]
    rfl

theorem SlopeParams.readsBack (naming : Naming) :
    ReadsBack SlopeParams.read fun p => .record (p.toRecord naming) := by
  refine ReadsBack.model fun r p h => ?_
  obtain ⟨_, _, h₇, offset, rfl⟩ := seq_eq_valid.1 h
  obtain ⟨_, _, h₆, limit, rfl⟩ := seq_eq_valid.1 h₇
  obtain ⟨_, _, h₅, order, rfl⟩ := seq_eq_valid.1 h₆
  obtain ⟨_, _, h₄, sortBy, rfl⟩ := seq_eq_valid.1 h₅
  obtain ⟨_, _, h₃, sections, rfl⟩ := seq_eq_valid.1 h₄
  obtain ⟨_, _, h₂, codes, rfl⟩ := seq_eq_valid.1 h₃
  obtain ⟨_, _, h₁, type, rfl⟩ := seq_eq_valid.1 h₂
  obtain ⟨_, level, rfl⟩ := map_eq_valid h₁
  cases naming
  all_goals
    rw [ofRecord,
      (Reader.readsBack_member _).withDefault rfl level _ rfl,
      (Reader.readsBack_member _).withDefault rfl type _ rfl,
      Reader.readsBack_texts.withDefault rfl codes _ rfl,
      Reader.readsBack_texts.withDefault rfl sections _ rfl,
      Reader.readsBack_text.withDefault rfl sortBy _ rfl,
      (Reader.readsBack_word _).withDefault rfl order _ rfl,
      Reader.readsBack_rowLimit.withDefault rfl limit _ rfl,
      Reader.readsBack_rowOffset.withDefault rfl offset _ rfl]
    rfl

/-! ### Queries over the raw sales

The three operations, whose fields are lists of fragments and limits. -/

theorem QueryArgs.readsBack_select : ReadsBack (Reader.nullable (Reader.list Reader.text))
    fun select => (select.map Value.ofTexts).getD .null :=
  Reader.readsBack_texts.nullable rfl (fun _ => rfl) fun _ => Value.noConfusion

theorem QueryArgs.readsBack (naming : Naming) :
    ReadsBack QueryArgs.read fun p => .record (p.toRecord naming) := by
  refine ReadsBack.model fun r p h => ?_
  obtain ⟨_, _, h₄, offset, rfl⟩ := seq_eq_valid.1 h
  obtain ⟨_, _, h₃, limit, rfl⟩ := seq_eq_valid.1 h₄
  obtain ⟨_, _, h₂, sort, rfl⟩ := seq_eq_valid.1 h₃
  obtain ⟨_, _, h₁, filters, rfl⟩ := seq_eq_valid.1 h₂
  obtain ⟨_, select, rfl⟩ := map_eq_valid h₁
  cases naming
  all_goals
    rw [ofRecord,
      readsBack_select.withDefault rfl select _ rfl,
      Predicate.readsBack.records.withDefault rfl filters _ rfl,
      SortSpec.readsBack.records.withDefault rfl sort _ rfl,
      Reader.readsBack_nullableInt.withDefault rfl limit _ rfl,
      Reader.readsBack_nullableInt.withDefault rfl offset _ rfl]
    rfl

theorem AggregationArgs.readsBack (naming : Naming) :
    ReadsBack AggregationArgs.read fun p => .record (p.toRecord naming) := by
  refine ReadsBack.model fun r p h => ?_
  obtain ⟨_, _, h₄, limit, rfl⟩ := seq_eq_valid.1 h
  obtain ⟨_, _, h₃, sort, rfl⟩ := seq_eq_valid.1 h₄
  obtain ⟨_, _, h₂, filters, rfl⟩ := seq_eq_valid.1 h₃
  obtain ⟨_, _, h₁, metrics, rfl⟩ := seq_eq_valid.1 h₂
  obtain ⟨_, groupBy, rfl⟩ := map_eq_valid h₁
  cases naming
  all_goals
    rw [ofRecord,
      Reader.readsBack_texts.withDefault rfl groupBy _ rfl,
      MetricSpec.readsBack.someRecords.required metrics _ rfl,
      Predicate.readsBack.records.withDefault rfl filters _ rfl,
      SortSpec.readsBack.records.withDefault rfl sort _ rfl,
      Reader.readsBack_nullableInt.withDefault rfl limit _ rfl]
    rfl

theorem ComputationArgs.readsBack (naming : Naming) :
    ReadsBack ComputationArgs.read fun p => .record (p.toRecord naming) := by
  refine ReadsBack.model fun r p h => ?_
  obtain ⟨_, _, h₄, limit, rfl⟩ := seq_eq_valid.1 h
  obtain ⟨_, _, h₃, sort, rfl⟩ := seq_eq_valid.1 h₄
  obtain ⟨_, _, h₂, filters, rfl⟩ := seq_eq_valid.1 h₃
  obtain ⟨_, _, h₁, computations, rfl⟩ := seq_eq_valid.1 h₂
  obtain ⟨_, groupBy, rfl⟩ := map_eq_valid h₁
  cases naming
  all_goals
    rw [ofRecord,
      Reader.readsBack_texts.withDefault rfl groupBy _ rfl,
      Computation.readsBack.someRecords.required computations _ rfl,
      Predicate.readsBack.records.withDefault rfl filters _ rfl,
      SortSpec.readsBack.records.withDefault rfl sort _ rfl,
      Reader.readsBack_nullableInt.withDefault rfl limit _ rfl]
    rfl

/-! ### All requests

The six requests together, under either way of writing the names of their fields. -/

/-- **A request that has been read is read again from what is written of it**, as the same request,
whichever names its fields are written under. That holds of all six requests and of every value that
is accepted for one, also where reading has changed the form of a number or filled in what was
missing. -/
theorem requests_read_back (naming : Naming) :
    ReadsBack FilterState.read (fun s => .record (s.toRecord naming)) ∧
    ReadsBack DeltaParams.read (fun p => .record (p.toRecord naming)) ∧
    ReadsBack SlopeParams.read (fun p => .record (p.toRecord naming)) ∧
    ReadsBack QueryArgs.read (fun q => .record (q.toRecord naming)) ∧
    ReadsBack AggregationArgs.read (fun q => .record (q.toRecord naming)) ∧
    ReadsBack ComputationArgs.read (fun q => .record (q.toRecord naming)) :=
  ⟨FilterState.readsBack naming, DeltaParams.readsBack naming, SlopeParams.readsBack naming,
    QueryArgs.readsBack naming, AggregationArgs.readsBack naming, ComputationArgs.readsBack naming⟩

/-- Texts, truth values and floating-point numbers that are read as integers, a filter, a NaN, and
what is not given at all. -/
theorem requests_read_back_coerced :
    let rollup : Record := [("property_type", .text "house"), ("year", .text " 2023 "),
      ("limit", .bool true), ("offset", .double 40), ("filters", .record [("avg_price",
        .record [("operation", .text "between"), ("value", .list [.int 1, .double 2])])])]
    let state : FilterState := {
      type := .house, year := 2023, limit := 1, offset := 40
      filters := some [("avg_price", .between (.int 1) (.double 2))] }
    let comparison : Record := [("minCurrent", .double .nan), ("baseYear", .double 2019)]
    let params : DeltaParams := { minCurrent := some .nan, baseYear := some 2019 }
    let sales : Record := [("metrics", .list [.record [("field", .text "price"),
      ("metric", .text "avg")]]), ("sort", .list [.record [("field", .text "price")]]),
      ("filters", .list [.record [("operator", .text "is_null"), ("field", .text "price")]])]
    let args : AggregationArgs := {
      metrics := [⟨"avg", "price"⟩], sort := [⟨"price", none⟩]
      filters := [⟨"price", "is_null", .null⟩] }
    (FilterState.read (.record rollup) = .valid state ∧
      FilterState.read (.record (state.toRecord .camel)) = .valid state) ∧
    (DeltaParams.read (.record comparison) = .valid params ∧
      DeltaParams.read (.record (params.toRecord .snake)) = .valid params) ∧
    AggregationArgs.read (.record sales) = .valid args ∧
      AggregationArgs.read (.record (args.toRecord .snake)) = .valid args := by
  intro rollup state comparison params sales args
  have read_state : FilterState.read (.record rollup) = .valid state := rfl
  have read_params : DeltaParams.read (.record comparison) = .valid params := rfl
  have read_args : AggregationArgs.read (.record sales) = .valid args := rfl
  obtain ⟨states, -⟩ := requests_read_back .camel
  obtain ⟨-, comparisons, -, -, aggregates, -⟩ := requests_read_back .snake
  exact ⟨⟨read_state, states _ _ read_state⟩, ⟨read_params, comparisons _ _ read_params⟩,
    read_args, aggregates _ _ read_args⟩

end PropertyMarket
