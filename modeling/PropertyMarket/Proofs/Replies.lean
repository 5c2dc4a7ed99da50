import Mathlib.Data.List.Forall2
import Mathlib.Data.List.Nodup
import PropertyMarket.Assistant
import PropertyMarket.Proofs.Leniency
import PropertyMarket.Proofs.LooseIntent

/-!
# What becomes of a reply

A language model may reply with anything. Unless the reply is nested too deeply or has a number
with too many digits, it ends in one of three ways: it is no JSON object, the object does not fit an
intent, or it becomes a state. Such a state keeps every bound that a read of a rollup has to keep,
whatever the object says, and says what the object says where that counts.

The bounds come from the readings of the single fields: a field that may be ignored only lets
through what it accepts, and a field that has to fit is checked as a whole. What is left is the
merge of the least number of sales with the filters.

## Main definitions

* `UserIntent.ReadFrom` — the readings that an intent is made of
* `FilterState.Bounded` — the bounds of a state
* `FilterState.Follows` — what a state has of the object that it comes of

## Main results

* `UserIntent.readFrom_of_read` — an intent is made of the readings of its fields
* `UserIntent.lookup_putFilter_of_ne`, `UserIntent.names_putFilter` — what a filter that is put
  among others leaves as it is
* `Assistant.filterState_outcome` — the three ways in which a reply ends

## Implementation notes

An intent is described by the readings of its fields, `UserIntent.ReadFrom`, before anything is said
of its state. So each bound of the state is one of a reading, and it is clear which field it comes
from.

The limits on nesting and on digits are not part of what is proved: a reply beyond them is refused
by the reader of texts in a way of its own. That is the only hypothesis, and it is about the text of
the reply alone.
-/

namespace PropertyMarket

/-! ### Lists that are read

A list is read item by item, and a list that is too long is refused. What is left has the length
that it had, and each item has passed its check. -/

namespace Checked

variable {α β : Type}

theorem length_of_eachFrom {read : α → Checked β} {first : Nat} {xs : List α} {ys : List β}
    (h : eachFrom read first xs = valid ys) : ys.length = xs.length := by
  induction xs generalizing first ys with
  | nil =>
    obtain rfl : [] = ys := by injection h
    rfl
  | cons x xs ih =>
    obtain ⟨_, rest, hfirst, hrest, rfl⟩ := seq_eq_valid.1 h
    obtain ⟨y, -, rfl⟩ := map_eq_valid hfirst
    rw [List.length_cons, List.length_cons, ih hrest]

end Checked

theorem Reader.length_le_of_listUpTo {α : Type} {most : Nat} {read : Value → Checked α} {v : Value}
    {items : List α} (h : listUpTo most read v = .valid items) : items.length ≤ most := by
  cases v with
  | list values =>
    rw [listUpTo] at h
    split at h
    · nomatch h
    · next fits => exact Checked.length_of_eachFrom h ▸ Nat.le_of_not_lt fits
  | _ => nomatch h

namespace UserIntent

theorem length_le_of_readTexts {v : Value} {texts : List String} (h : readTexts v = .valid texts) :
    texts.length ≤ maxLocations := by
  have few {items : List String} (hitems : items.length ≤ 1)
      (h : Checked.valid items = .valid texts) : texts.length ≤ maxLocations := by
    obtain rfl : items = texts := by injection h
    exact Nat.le_trans hitems (by decide)
  cases v with
  | null => exact few (Nat.zero_le _) h
  | text s => exact few (Nat.le_refl _) h
  | _ =>
    simp only [readTexts] at h
    exact Reader.length_le_of_listUpTo h

theorem checkEach_eq_valid {accepts : String → Bool} {complaint : String}
    {texts checked : List String} (h : checkEach accepts complaint texts = .valid checked) :
    checked = texts ∧ ∀ s ∈ texts, accepts s = true := by
  unfold checkEach at h
  split at h
  · nomatch h
  · next none_refused =>
    obtain rfl : texts = checked := by injection h
    exact ⟨rfl, by simpa using none_refused⟩

/-- Codes that have been read are not too many, and each of them passes its check. -/
theorem fits_of_withDefault {key : Key} {accepts : String → Bool} {complaint : String} {r : Record}
    {codes : List String}
    (h : key.withDefault [] (fun v => (readTexts v).andThen (checkEach accepts complaint)) r =
      .valid codes) :
    codes.length ≤ maxLocations ∧ ∀ s ∈ codes, accepts s = true := by
  obtain rfl | ⟨v, hv⟩ := Key.withDefault_eq_valid h
  · exact ⟨Nat.zero_le _, by simp⟩
  · obtain ⟨texts, htexts, hchecked⟩ := Checked.andThen_eq_valid hv
    obtain ⟨rfl, fit⟩ := checkEach_eq_valid hchecked
    exact ⟨length_le_of_readTexts htexts, fit⟩

/-! ### The readings of an intent

Of the eleven fields of an intent seven are read leniently and four have to fit. What is said of a
lenient one is that its value, if it has any, is one that the field accepts. -/

/-- The readings that an intent is made of, one for each field. They do not depend on each other. -/
structure ReadFrom (r : Record) (i : UserIntent) : Prop where
  dimension : i.dimension = lenient dimensionKey dimension? r
  metric : i.metric = lenient Key.metric metric? r
  type : i.type = lenient Key.propertyType Vocabulary.ofValue? r
  year : i.year = lenient Key.year year? r
  month : i.month = lenient Key.month month? r
  limit : i.limit = lenient Key.limit limit? r
  order : i.order = lenient Key.sortOrder Vocabulary.ofValue? r
  inseeCodes : Key.inseeCodes.withDefault [] readInseeCodes r = .valid i.inseeCodes
  sections : Key.sections.withDefault [] readSections r = .valid i.sections
  filters : Key.filters.withDefault none (Reader.nullable readFilters) r = .valid i.filters
  minSales : minSalesKey.withDefault none
    (Reader.nullable (Reader.intWithin 0 none Reader.strictInt)) r = .valid i.minSales

theorem readFrom_of_read {r : Record} {i : UserIntent} (h : read (.record r) = .valid i) :
    i.ReadFrom r := by
  -- The four fields that have to fit, each joined to the ones before it.
  obtain ⟨_, _, hthree, minSales, rfl⟩ := Checked.seq_eq_valid.1 h
  obtain ⟨_, _, htwo, filters, rfl⟩ := Checked.seq_eq_valid.1 hthree
  obtain ⟨_, _, hone, sections, rfl⟩ := Checked.seq_eq_valid.1 htwo
  obtain ⟨_, inseeCodes, rfl⟩ := Checked.map_eq_valid hone
  exact ⟨rfl, rfl, rfl, rfl, rfl, rfl, rfl, inseeCodes, sections, filters, minSales⟩

theorem accepts_of_lenient {key : Key} {accepts : Value → Bool} {r : Record} {n : Int}
    (h : lenient key (intOf? accepts) r = some n) : accepts (.int n) = true := by
  obtain ⟨v, -, picked⟩ := Option.bind_eq_some_iff.1 h
  cases v with
  | int m =>
    obtain ⟨accepted, rfl⟩ : accepts (.int m) = true ∧ m = n := by simpa [intOf?] using picked
    exact accepted
  | _ => simp [intOf?] at picked

/-- The dimension of an intent is the section exactly if the object says so. -/
theorem ReadFrom.dimension_iff {r : Record} {i : UserIntent} (h : i.ReadFrom r) {name : String}
    (known : name ∈ Dimension.names) :
    i.dimension = some name ↔ dimensionKey.find? r = some (.text name) := by
  rw [h.dimension, lenient, Option.bind_eq_some_iff]
  constructor
  · rintro ⟨v, found, picked⟩
    cases v with
    | text s =>
      obtain ⟨-, rfl⟩ : s ∈ Dimension.names ∧ s = name := by
        simpa [dimension?, nameOf?] using picked
      exact found
    | _ => simp [dimension?, nameOf?] at picked
  · intro found
    exact ⟨_, found, by simpa [dimension?, nameOf?] using known⟩

/-- The least number of sales is the integer that the object gives, and there is none otherwise. -/
theorem ReadFrom.minSales_iff {r : Record} {i : UserIntent} (h : i.ReadFrom r) {n : Int} :
    i.minSales = some n ↔ minSalesKey.find? r = some (.int n) := by
  have reading := h.minSales
  unfold Key.withDefault at reading
  cases found : minSalesKey.find? r with
  | none =>
    rw [found] at reading
    obtain none_given : none = i.minSales := by injection reading
    simp [← none_given]
  | some v =>
    rw [found] at reading
    replace reading := Checked.under_eq_valid reading
    cases v with
    | null =>
      obtain none_given : none = i.minSales := by injection reading
      simp [← none_given]
    | int m =>
      obtain ⟨k, hk, same⟩ := Checked.map_eq_valid reading
      obtain ⟨_, whole, bounded⟩ := Checked.andThen_eq_valid hk
      obtain rfl : m = _ := by injection whole
      obtain rfl : m = k := by
        split at bounded
        · nomatch bounded
        · injection bounded
      simp [← same]
    | _ => nomatch reading

/-! ### The least number of sales among the filters

A filter that is put among others replaces the one of its name or comes last. So the others stay as
they are, and so does the order of the names. -/

section

variable {name other : String} {filter : NumericFilter}

theorem lookup_putFilter_self (name : String) (filter : NumericFilter)
    (filters : List (String × NumericFilter)) :
    (putFilter name filter filters).lookup name = some filter := by
  induction filters with
  | nil => simp [putFilter]
  | cons first rest ih =>
    obtain ⟨n, f⟩ := first
    by_cases same : n = name
    · rw [putFilter, if_pos same, List.lookup_cons_self]
    · have differ : (name == n) = false := by simpa using Ne.symm same
      rw [putFilter, if_neg same, List.lookup_cons, differ]
      exact ih

theorem lookup_putFilter_of_ne (h : other ≠ name) (filter : NumericFilter)
    (filters : List (String × NumericFilter)) :
    (putFilter name filter filters).lookup other = filters.lookup other := by
  have unlike : (other == name) = false := by simpa using h
  induction filters with
  | nil => rw [putFilter, List.lookup_cons, unlike]
  | cons first rest ih =>
    obtain ⟨n, f⟩ := first
    by_cases same : n = name
    · rw [putFilter, if_pos same, List.lookup_cons, List.lookup_cons, same, unlike]
    · rw [putFilter, if_neg same, List.lookup_cons, List.lookup_cons]
      cases other == n with
      | true => rfl
      | false => exact ih

/-- A filter that is put among others keeps the place of its name, or comes last. -/
theorem names_putFilter (name : String) (filter : NumericFilter)
    (filters : List (String × NumericFilter)) :
    (putFilter name filter filters).map (·.1) =
      if name ∈ filters.map (·.1) then filters.map (·.1) else filters.map (·.1) ++ [name] := by
  induction filters with
  | nil => rfl
  | cons first rest ih =>
    obtain ⟨n, f⟩ := first
    by_cases same : n = name
    · simp [putFilter, same]
    · rw [putFilter, if_neg same, List.map_cons, ih, List.map_cons]
      by_cases known : name ∈ rest.map (·.1)
      · rw [if_pos known, if_pos (List.mem_cons_of_mem n known)]
      · have unknown : name ∉ n :: rest.map (·.1) := by
          rw [List.mem_cons]
          exact fun h => h.elim (Ne.symm same) known
        rw [if_neg known, if_neg unknown, List.cons_append]

end

end UserIntent

/-! ### The state of a reply

What is asked of a state is in two structures. The first only speaks of the state, and says that it
is one that a read accepts; the second compares it with the object that it comes of. -/

/-- A filter compares with as many numbers as its operation takes. -/
def NumericFilter.HoldsNumbers (f : NumericFilter) : Prop :=
  match f.operation with
  | .between => ∃ low high : Amount, f.value = .list [low.toValue, high.toValue]
  | .gte | .lte => ∃ bound : Amount, f.value = bound.toValue

theorem NumericFilter.holdsNumbers (f : NumericFilter) : f.HoldsNumbers := by
  cases f with
  | atLeast a => exact ⟨a, rfl⟩
  | atMost a => exact ⟨a, rfl⟩
  | between a b => exact ⟨a, b, rfl⟩

namespace FilterState

/-- The bounds of a read of a rollup: of its period, of its page, of its locations, of its filters
and of its sort key. -/
structure Bounded (s : FilterState) : Prop where
  year : s.year ∈ Calendar.years
  month : ∀ m, s.month = some m → 1 ≤ m ∧ m ≤ 12
  limit : 1 ≤ s.limit ∧ s.limit ≤ 500
  offset : s.offset = 0
  inseeCodes : s.inseeCodes.length ≤ 100 ∧ ∀ c ∈ s.inseeCodes, c.length = 5
  sections : s.sections.length ≤ 100 ∧ ∀ c ∈ s.sections, c.length = 10 ∨ c.length = 11
  /-- There are filters or there are none, and all of them are filters of metrics. -/
  filters : s.filters ≠ some [] ∧ ∀ f ∈ s.filters.getD [], f.1 ∈ Metric.names ∧ f.2.HoldsNumbers
  sortBy : s.sortBy ∈ Dimension.names ∨ s.sortBy ∈ Metric.sortable

/-- What a state has of the object that it comes of: its level, its filters, and the least number of
sales among them. -/
structure Follows (r : Record) (s : FilterState) : Prop where
  level : s.level = .cadastral ↔
    UserIntent.dimensionKey.find? r = some (.text "section") ∨ s.sections ≠ []
  /-- The filters are those of the object, with a positive least number of sales among them. -/
  filters : ∃ given,
    Key.filters.withDefault none (Reader.nullable UserIntent.readFilters) r = .valid given ∧
    (∀ n, UserIntent.minSalesKey.find? r = some (.int n) → 0 < n →
      (s.filters.getD []).lookup "total_sales" = some (.atLeast (.int n)) ∧
      (∀ name, name ≠ "total_sales" →
        (s.filters.getD []).lookup name = (given.getD []).lookup name) ∧
      (s.filters.getD []).map (·.1) =
        if "total_sales" ∈ (given.getD []).map (·.1) then (given.getD []).map (·.1)
        else (given.getD []).map (·.1) ++ ["total_sales"]) ∧
    ((∀ n, UserIntent.minSalesKey.find? r = some (.int n) → n ≤ 0) →
      s.filters.getD [] = given.getD [])

end FilterState

namespace UserIntent

/-- The sort key of an intent is its dimension, or a metric that rollups are sorted by. -/
theorem Normal.sortKey_mem {i : UserIntent} (h : i.Normal) :
    i.sortKey ∈ Dimension.names ∨ i.sortKey ∈ Metric.sortable := by
  have preferred : Metric.preferred ∈ Metric.sortable := by decide
  unfold sortKey
  cases hd : i.dimension with
  | some d => exact .inl (h.dimension d hd)
  | none =>
    right
    cases i.metric with
    | none => exact preferred
    | some m => by_cases sorted : m ∈ Metric.sortable <;> simp [sorted, preferred]

/-- The state of an intent that has been read keeps every bound. -/
theorem ReadFrom.bounded {r : Record} {i : UserIntent} (h : i.ReadFrom r) (normal : i.Normal) :
    i.toState.Bounded where
  year := by
    have latest : Calendar.latestYear ∈ Calendar.years := by decide
    show i.year.getD Calendar.latestYear ∈ Calendar.years
    cases given : i.year with
    | none => exact latest
    | some n =>
      have accepted := accepts_of_lenient (h.year.symm.trans given)
      simpa [Calendar.isYear] using accepted
  month m hm := isMonth_int_iff.1 (accepts_of_lenient (h.month.symm.trans hm))
  limit := by
    show 1 ≤ i.limit.getD defaultRows ∧ i.limit.getD defaultRows ≤ 500
    cases given : i.limit with
    | none => decide
    | some n => exact isRowLimit_int_iff.1 (accepts_of_lenient (h.limit.symm.trans given))
  offset := rfl
  inseeCodes := by
    obtain ⟨few, fit⟩ := fits_of_withDefault h.inseeCodes
    exact ⟨few, fun c hc => by simpa [inseeCodeLength] using fit c hc⟩
  sections := by
    obtain ⟨few, fit⟩ := fits_of_withDefault h.sections
    exact ⟨few, fun c hc => by simpa [isSectionLength] using fit c hc⟩
  filters := by
    refine ⟨?_, fun f hf => ⟨normal.filters_toState f hf, f.2.holdsNumbers⟩⟩
    unfold toState
    cases withMinSales i.minSales (i.filters.getD []) <;> simp
  sortBy := normal.sortKey_mem

/-- The state of an intent has what the object says. -/
theorem ReadFrom.follows {r : Record} {i : UserIntent} (h : i.ReadFrom r) :
    i.toState.Follows r where
  level := by
    have said : i.dimension = some "section" ↔
        dimensionKey.find? r = some (.text "section") := h.dimension_iff (by decide)
    show i.level = .cadastral ↔ _
    rw [level, ← said]
    simp only [ite_eq_left_iff, reduceCtorEq, imp_false, not_not]
    rfl
  filters := by
    refine ⟨i.filters, h.filters, fun n found positive => ?_, fun none_positive => ?_⟩
    · rw [filters_toState, h.minSales_iff.2 found, withMinSales, if_pos positive]
      exact ⟨lookup_putFilter_self .., fun name differ => lookup_putFilter_of_ne differ ..,
        names_putFilter ..⟩
    · rw [filters_toState]
      cases given : i.minSales with
      | none => rfl
      | some n =>
        have low : ¬0 < n := Int.not_lt.2 (none_positive n (h.minSales_iff.1 given))
        rw [withMinSales, if_neg low]

end UserIntent

/-! ### The three ways in which a reply ends

There are no others, within the limits of the reader. Which of the three it is depends on the reply
alone. -/

/-- A text is not nested too deeply and has no number with too many digits, so that reading it fails
only if it is malformed. -/
def Json.WithinLimits (text : String) : Prop :=
  ∀ failure, Json.read text = .error failure → failure = .malformed

/-- A reply within the limits is a JSON object, or is refused as a reply. -/
theorem Completion.payload_cases (question : String) (reply : Except String (Option String))
    (within : ∀ text, reply = .ok (some text) → Json.WithinLimits text) :
    (∃ e, payload question reply = .error (.assistant e)) ∨
      ∃ text r, reply = .ok (some text) ∧ Json.read text = .ok (.record r) ∧
        payload question reply = .ok r := by
  match reply with
  | .error message => exact .inl ⟨_, rfl⟩
  | .ok none => exact .inl ⟨_, rfl⟩
  | .ok (some text) =>
    by_cases empty : text = ""
    · exact .inl ⟨_, by rw [payload, if_pos empty]⟩
    · unfold payload
      dsimp only
      rw [if_neg empty]
      cases parsed : Json.read text with
      | error failure =>
        obtain rfl := within text rfl failure parsed
        exact .inl ⟨_, rfl⟩
      | ok v =>
        cases v with
        | record r => exact .inr ⟨text, r, rfl, parsed, rfl⟩
        | _ => exact .inl ⟨_, rfl⟩

theorem Assistant.outcome_filterState (a : Assistant) (question : String) :
    (a.filterState question).outcome =
      (Completion.payload question (a.model ⟨a.name, .intent, question⟩)).bind
        fun r => FilterState.ofIntent (.record r) :=
  rfl

/-- **A reply is refused as a reply, or as an intent, or it becomes a state that keeps all bounds.**
There is no fourth outcome, whatever the language model answers within the limits of what is read as
JSON. The state is the one of the object that the reply is, and each of its parts follows from a
field of that object or has its usual value. -/
theorem Assistant.filterState_outcome (a : Assistant) (question : String)
    (within : ∀ text, a.model ⟨a.name, .intent, question⟩ = .ok (some text) →
      Json.WithinLimits text) :
    (∃ e, (a.filterState question).outcome = .error (.assistant e)) ∨
      (∃ issues, (a.filterState question).outcome = .error (.invalid "UserIntent" issues)) ∨
      ∃ text r s, a.model ⟨a.name, .intent, question⟩ = .ok (some text) ∧
        Json.read text = .ok (.record r) ∧ FilterState.ofIntent (.record r) = .ok s ∧
        (a.filterState question).outcome = .ok s ∧ s.Bounded ∧ s.Follows r := by
  rw [outcome_filterState]
  obtain ⟨e, refused⟩ | ⟨text, r, replied, parsed, payload⟩ :=
    Completion.payload_cases question _ within
  · exact .inl ⟨e, by rw [refused]; rfl⟩
  · right
    have given : (Completion.payload question (a.model ⟨a.name, .intent, question⟩)).bind
        (fun r => FilterState.ofIntent (.record r)) = FilterState.ofIntent (.record r) := by
      rw [payload]
      rfl
    rw [given]
    cases hs : FilterState.ofIntent (.record r) with
    | error fault =>
      obtain ⟨issues, -, rfl⟩ := FilterState.ofIntent_eq_error_iff.1 hs
      exact .inl ⟨issues, rfl⟩
    | ok s =>
      obtain ⟨i, hread, rfl⟩ := FilterState.exists_read_of_ofIntent hs
      have readings := UserIntent.readFrom_of_read hread
      exact .inr ⟨text, r, _, replied, parsed, hs, rfl,
        readings.bounded (UserIntent.normal_of_read hread), readings.follows⟩

namespace Assistant

/-- A reply that asks for ten sales, and for a year that is none. -/
def tenSales : String := "\x7b\"minSales\": 10, \"year\": true\x7d"

/-- An assistant whose language model always replies that. -/
def askingTenSales : Assistant := ⟨fun _ => .ok (some tenSales), ""⟩

theorem read_tenSales :
    Json.read tenSales = .ok (.record [("minSales", .int 10), ("year", .bool true)]) := by
  dsimp only [Json.read, tenSales, String.reduceToList]
  rfl

theorem outcome_tenSales : (askingTenSales.filterState "").outcome =
    .ok { filters := some [("total_sales", .atLeast (.int 10))] } := by
  have replied (c : Completion) : askingTenSales.model c = .ok (some tenSales) := rfl
  have payload : Completion.payload "" (.ok (some tenSales)) =
      .ok [("minSales", .int 10), ("year", .bool true)] := by
    rw [Completion.payload, if_neg (by decide), read_tenSales]
  rw [outcome_filterState, replied, payload]
  rfl

/-- The year is ignored, the least number of sales becomes a filter, and every bound is kept. -/
theorem filterState_tenSales :
    Json.WithinLimits tenSales ∧ ∃ s, (askingTenSales.filterState "").outcome = .ok s ∧
      s.filters = some [("total_sales", .atLeast (.int 10))] ∧ s.Bounded := by
  have within : Json.WithinLimits tenSales := fun failure h => by
    rw [read_tenSales] at h
    cases h
  have replied (text : String) (h : askingTenSales.model ⟨"", .intent, ""⟩ = .ok (some text)) :
      Json.WithinLimits text := by
    have same : tenSales = text := Option.some.inj (Except.ok.inj h)
    exact same ▸ within
  refine ⟨within, _, outcome_tenSales, rfl, ?_⟩
  obtain ⟨e, h⟩ | ⟨issues, h⟩ | ⟨_, _, s, -, -, -, h, bounded, -⟩ :=
    filterState_outcome askingTenSales "" replied
  · nomatch outcome_tenSales.symm.trans h
  · nomatch outcome_tenSales.symm.trans h
  · rw [Except.ok.inj (outcome_tenSales.symm.trans h)]
    exact bounded

end Assistant

end PropertyMarket
