import PropertyMarket.Proofs.DeltaPages
import PropertyMarket.Proofs.Refusals

/-!
# What reads of comparisons and of slopes are refused for

A read of a yearly comparison names its columns by a metric and a part, and a read of the slopes by
the metric with an ending. The metric is any text. Nothing but a metric of the property type makes
the name of a column with one of these endings, so a read is answered exactly if its metric is one,
and if sections are asked for where they are told apart. All others are refused for one name, which
is reported as an unknown field; in no other way can a read fail.

An answered read is restricted to what is given, and by nothing else: each restriction is one of
the column that it is named after.

## Main definitions

* `Predicate.Means` — the condition that a predicate is, whatever the column is
* `Relation.Restricts` — the condition that a predicate is on a relation
* `DeltaParams.restrictions`, `SlopeParams.restrictions` — what a read is restricted to
* `ReadOutcome` — when a read is answered, by what it is restricted, and how it is refused

## Main results

* `Relation.offers_part_iff`, `Relation.offers_slope_iff` — the names that are offered
* `Relation.readOutcome` — a read is refused for its sort key or for its sections
* `derived_reads_resolve` — the same in terms of metrics, for comparisons and for slopes

## Implementation notes

A metric is any text, and it is not looked up by itself: it is put in front of an ending, and what
results is looked up among the names of the relation. So it has to be excluded that a text which is
no metric makes a name that is offered for another reason. The endings make this a question about
finitely many names, none of which another one extends by an ending.

The two reads share `Relation.readOutcome`, which says when a read with given predicates is
answered. What is left for each of them is which names its predicates have.
-/

namespace PropertyMarket

/-! ### Predicates whose conditions are known

The reads make their predicates themselves, of operators that they know and values of the right
shape. For such a predicate the condition can be written down before the column is found, and
compiling it can only fail for the field. -/

namespace Predicate

variable {p : Predicate} {make : Term → Condition} {field : String}

/-- The operator of a predicate is known, and makes a condition of its value, whatever the column
is. -/
def Means (p : Predicate) (make : Term → Condition) : Prop :=
  ∃ o : Operator, p.operator = Vocabulary.word o ∧ ∀ term, o.apply p term = .ok (make term)

theorem Means.fits (h : p.Means make) : p.Fits := by
  obtain ⟨o, word, applied⟩ := h
  exact ⟨o, word, fun term => ⟨_, applied term⟩⟩

/-- The condition is that on the column of the field. -/
theorem Means.compile_eq_ok {table : Table} {family : Family} {condition : Condition}
    (h : p.Means make) (compiled : p.compile table family = .ok condition) :
    ∃ column, Field.onTable table family p.field = .ok column ∧
      condition = make (.ofColumn table column) := by
  obtain ⟨o, word, applied⟩ := h
  obtain ⟨o', column, word', found, made⟩ := Predicate.compile_eq_ok compiled
  obtain rfl := Vocabulary.word_inj.1 (word'.symm.trans word)
  exact ⟨column, found, Except.ok.inj (made.symm.trans (applied _))⟩

theorem means_equalsInt {n : ℤ} : (⟨field, "=", .int n⟩ : Predicate).Means
    fun term => .compare .eq term (.bound (.int n)) :=
  ⟨.compare .eq, rfl, comparison_ok rfl (by simp) .eq⟩

theorem equalsInt?_eq (field : String) (value : Option ℤ) :
    equalsInt? field value = (value.map fun n => ⟨field, "=", .int n⟩).toList := by
  cases value <;> rfl

theorem means_oneOf {texts : List String} (h : texts ≠ []) :
    (⟨field, "in", .ofTexts texts⟩ : Predicate).Means
      fun term => .oneOf term (texts.map .text) := by
  refine ⟨.oneOf, rfl, fun term => ?_⟩
  have scalars : (texts.map Value.text).all Value.isScalar = true := by simp [Value.isScalar]
  simp [Operator.apply, Value.ofTexts, scalars, h]

theorem means_atLeast {x : Double} : (⟨field, "gte", .double x⟩ : Predicate).Means
    fun term => .compare .ge term (.bound (.double x)) :=
  ⟨.atLeast, rfl, comparison_ok rfl (by simp) .ge⟩

theorem means_atMost {x : Double} : (⟨field, "lte", .double x⟩ : Predicate).Means
    fun term => .compare .le term (.bound (.double x)) :=
  ⟨.atMost, rfl, comparison_ok rfl (by simp) .le⟩

end Predicate

/-! ### What a relation offers

The columns of a comparison are four parts of each measure, and those of the slopes are the slopes
of each measure. Which texts in front of an ending give such a name is decided here, once for each
family. -/

/-- The names of the keys and the years of a comparison, as fields and as columns. -/
def Comparison.keyNames : List String :=
  ["inseeCode", "insee_code", "section", "year", "base_year"]

/-- Neither a key nor a year is a part of a comparison. -/
theorem Comparison.column_ne_key (part : Comparison.Part) {name key : String}
    (h : key ∈ keyNames) : part.column name ≠ key := by
  refine part.column_ne_of_ending (fun part => ?_) name
  revert key
  cases part <;> decide

namespace Relation

variable {r : Relation} {level : Level} {type : PropertyType} {name : String}

/-- The columns of comparisons and of slopes are named after their fields, but for that of the
communes. -/
theorem name_of_onTable {family : Family} (derived : family ∈ [Family.delta, .slope])
    {table : Table} {c : Column} (found : Field.onTable table family name = .ok c) :
    c.name = if name = "inseeCode" then "insee_code" else name := by
  have named : ∀ family ∈ [Family.delta, .slope], ∀ f ∈ family.fields,
      f.column = if f.name = "inseeCode" then "insee_code" else f.name := by
    decide +kernel
  obtain ⟨f, known, stored⟩ := Field.onTable_eq_ok_iff.1 found
  rw [Table.name_of_column? stored, named family derived f (Field.mem_fields_of_find? known),
    Field.find?_name known]

/-- **A comparison has a part of what its property type measures, and of nothing else.** The name
may be any text: if it is not measured, adding the ending of a part does not make it the name of a
column. -/
theorem offers_part_iff {part : Comparison.Part} :
    (delta level type).Offers (part.column name) ↔ name ∈ type.measured := by
  constructor
  · intro offered
    obtain ⟨c, found⟩ := Field.onTable_ok_iff_offers.2 offered
    have derived : Family.delta ∈ [Family.delta, .slope] := by decide
    have named := name_of_onTable derived found
    rw [if_neg (Comparison.column_ne_key part (by decide))] at named
    obtain ⟨f, -, stored⟩ := Field.onTable_eq_ok_iff.1 found
    have held : c ∈ locationColumns level ++ ([⟨"year", .integer, false⟩,
        ⟨"base_year", .integer, false⟩] ++ type.measured.flatMap comparisonColumns) :=
      List.mem_of_find?_eq_some stored
    rw [List.mem_append, List.mem_append, List.mem_flatMap] at held
    obtain location | year | ⟨name', measured, compared⟩ := held
    · have keys : ∀ c ∈ locationColumns level, c.name ∈ Comparison.keyNames := by
        cases level <;> decide
      exact absurd named.symm (Comparison.column_ne_key part (keys c location))
    · have keys : ∀ c ∈ [(⟨"year", .integer, false⟩ : Column), ⟨"base_year", .integer, false⟩],
          c.name ∈ Comparison.keyNames := by
        decide
      exact absurd named.symm (Comparison.column_ne_key part (keys c year))
    · obtain ⟨part', -, rfl⟩ := List.mem_map.1 compared
      exact (Comparison.Part.column_inj.1 named).2 ▸ measured
  · intro measured
    refine ⟨Field.measure .delta (Field.kindOf name) (part.column name), ?_, rfl,
      ⟨part.column name, if part = .percent then .float else metricType name, true⟩, ?_, rfl⟩
    · refine List.mem_append_right _ (List.mem_flatMap.2 ⟨name, measured_subset measured, ?_⟩)
      exact List.mem_map.2 ⟨part, Comparison.mem_parts part, rfl⟩
    · refine List.mem_append_right _ (List.mem_append_right _ (List.mem_flatMap.2
        ⟨name, measured, ?_⟩))
      exact List.mem_map.2 ⟨part, Comparison.mem_parts part, rfl⟩

theorem offers_delta_key (level : Level) (type : PropertyType) :
    (∀ key ∈ ["inseeCode", "year", "base_year"], (delta level type).Offers key) ∧
      ((delta level type).Offers "section" ↔ level = .cadastral) := by
  cases level <;> cases type <;> decide +kernel

/-- The names of the fields of which a relation has the column. -/
def offered (r : Relation) : List String :=
  (r.family.fields.filter fun f => r.columns.any fun c => c.name == f.column).map Field.name

theorem mem_offered_iff : name ∈ r.offered ↔ r.Offers name := by
  simp only [offered, Offers, List.mem_map, List.mem_filter, List.any_eq_true, beq_iff_eq]
  constructor
  · rintro ⟨f, ⟨hf, held⟩, named⟩
    exact ⟨f, hf, named, held⟩
  · rintro ⟨f, hf, named, held⟩
    exact ⟨f, ⟨hf, held⟩, named⟩

/-- A slope relation has its keys, the window, and the slopes of what its property type measures. -/
theorem offers_slope_iff : (slope level type).Offers name ↔
    name ∈ ["inseeCode", "year", "month"] ∨ name ∈ windowColumns ∨
      (name = "section" ∧ level = .cadastral) ∨ ∃ m ∈ type.measured, name = slopeColumn m := by
  have names : (slope level type).offered =
      "inseeCode" :: ((if level = .cadastral then ["section"] else []) ++ ["year", "month"] ++
        windowColumns ++ type.measured.map slopeColumn) := by
    cases level <;> cases type <;> decide +kernel
  rw [← mem_offered_iff, names]
  cases level <;> simp [eq_comm] <;> tauto

theorem offers_slope_key (level : Level) (type : PropertyType) :
    (slope level type).Offers "inseeCode" ∧
      ((slope level type).Offers "section" ↔ level = .cadastral) := by
  cases level <;> cases type <;> decide +kernel

end Relation

/-! ### Restrictions

What a read is restricted to, as a list of conditions on columns of the relation. It is written in
terms of what is given, without predicates and without operators, so that it can be compared with
what the read is documented to do. -/

namespace Condition

/-- A term is one of some texts, if there are any. -/
def among (term : Term) (texts : List String) : List Condition :=
  if texts = [] then [] else [.oneOf term (texts.map .text)]

/-- A term compares with a value, if there is one. -/
def compared (comparator : Comparator) (term : Term) (value : Option Value) : List Condition :=
  value.toList.map fun v => .compare comparator term (.bound v)

end Condition

open Condition in
/-- What a read of a yearly comparison is restricted to: the locations and the years that are given,
and bounds for the parts of the metric. What is not given restricts nothing. -/
def DeltaParams.restrictions (p : DeltaParams) : List Condition :=
  let column := Term.column p.relation.name
  among (column "insee_code") p.inseeCodes ++ among (column "section") p.sections ++
    compared .eq (column "year") (p.year.map .int) ++
    compared .eq (column "base_year") (p.baseYear.map .int) ++
    compared .ge (column (p.metric ++ "_current")) (p.minCurrent.map .double) ++
    compared .le (column (p.metric ++ "_current")) (p.maxCurrent.map .double) ++
    compared .ge (column (p.metric ++ "_base")) (p.minBase.map .double) ++
    compared .ge (column (p.metric ++ "_delta")) (p.minDelta.map .double) ++
    compared .ge (column (p.metric ++ "_pct_change")) (p.minPercent.map .double)

/-- The relation that a read of the slopes reads. -/
def SlopeParams.relation (p : SlopeParams) : Relation := .slope p.level p.type

/-- What a read of the slopes is restricted to: the communes and the sections that are given, if any
are. -/
def SlopeParams.restrictions (p : SlopeParams) : List Condition :=
  Condition.among (.column p.relation.name "insee_code") p.inseeCodes ++
    Condition.among (.column p.relation.name "section") p.sections

namespace Relation

variable {r : Relation} {predicates : List Predicate} {conditions : List Condition}

/-- The condition that a predicate is on a comparison, or on the slopes: what the predicate means,
said of the column of its field. -/
def Restricts (r : Relation) (p : Predicate) (condition : Condition) : Prop :=
  ∃ make, p.Means make ∧
    condition = make (.column r.name (if p.field = "inseeCode" then "insee_code" else p.field))

/-- Predicates have no other conditions than those that they are known to be. So if the statement
exists, its conditions are the restrictions, in their order. -/
theorem eq_of_compileAll (derived : r.family ∈ [Family.delta, .slope])
    (restricts : List.Forall₂ r.Restricts predicates conditions) {made : List Condition}
    (compiled : Predicate.compileAll r.table r.family predicates = .ok made) :
    made = conditions := by
  have each := Outcome.mapM_eq_ok_iff.1 compiled
  clear compiled
  induction restricts generalizing made with
  | nil => exact List.forall₂_nil_left_iff.1 each
  | cons first _ ih =>
    obtain ⟨condition, rest, hfirst, hrest, rfl⟩ := List.forall₂_cons_left_iff.1 each
    obtain ⟨make, means, rfl⟩ := first
    obtain ⟨column, found, rfl⟩ := means.compile_eq_ok hfirst
    rw [ih hrest, Term.ofColumn, name_of_onTable derived found]
    rfl

theorem fits_of_restricts (restricts : List.Forall₂ r.Restricts predicates conditions) :
    ∀ p ∈ predicates, p.Fits := by
  induction restricts with
  | nil => nofun
  | cons first _ ih =>
    obtain ⟨make, means, -⟩ := first
    exact List.forall_mem_cons.2 ⟨means.fits, ih⟩

theorem restricts_among (field : String) (texts : List String) :
    List.Forall₂ r.Restricts (if texts = [] then [] else [⟨field, "in", .ofTexts texts⟩])
      (Condition.among (.column r.name (if field = "inseeCode" then "insee_code" else field))
        texts) := by
  rw [Condition.among]
  split
  · exact .nil
  · exact .cons ⟨_, Predicate.means_oneOf ‹_›, rfl⟩ .nil

theorem restricts_locations (codes sections : List String) :
    List.Forall₂ r.Restricts (Predicate.locations codes sections)
      (Condition.among (.column r.name "insee_code") codes ++
        Condition.among (.column r.name "section") sections) :=
  List.rel_append (restricts_among "inseeCode" codes) (restricts_among "section" sections)

/-- A comparison with a value that may be given. -/
theorem restricts_compared {α : Type} {comparator : Comparator} {field operator : String}
    {value : α → Value} (plain : field ≠ "inseeCode")
    (means : ∀ x, (⟨field, operator, value x⟩ : Predicate).Means
      fun term => .compare comparator term (.bound (value x))) (given : Option α) :
    List.Forall₂ r.Restricts (given.map fun x => (⟨field, operator, value x⟩ : Predicate)).toList
      (Condition.compared comparator (.column r.name field) (given.map value)) := by
  cases given with
  | none => exact .nil
  | some x => exact .cons ⟨_, means x, by rw [if_neg plain]⟩ .nil

end Relation

/-- The predicates of a read of a yearly comparison are its restrictions. -/
theorem DeltaParams.restricts_allPredicates (p : DeltaParams) :
    List.Forall₂ p.relation.Restricts p.allPredicates p.restrictions := by
  have bounds : p.bounds =
      (p.minCurrent.map fun x => ⟨p.metric ++ "_current", "gte", .double x⟩).toList ++
        ((p.maxCurrent.map fun x => ⟨p.metric ++ "_current", "lte", .double x⟩).toList ++
          ((p.minBase.map fun x => ⟨p.metric ++ "_base", "gte", .double x⟩).toList ++
            ((p.minDelta.map fun x => ⟨p.metric ++ "_delta", "gte", .double x⟩).toList ++
              (p.minPercent.map fun x =>
                ⟨p.metric ++ "_pct_change", "gte", .double x⟩).toList))) := by
    simp only [DeltaParams.bounds, List.filterMap_eq_flatMap_toList, List.flatMap_cons,
      List.flatMap_nil, List.append_nil, Comparison.Part.column, String.append_assoc]
    rfl
  have plain (part : Comparison.Part) :
      p.metric ++ ("_" ++ Vocabulary.word part) ≠ "inseeCode" := by
    rw [← String.append_assoc]
    exact Comparison.column_ne_key part (by decide)
  have least {field : String} (x : Double) :
      (⟨field, "gte", .double x⟩ : Predicate).Means _ := Predicate.means_atLeast
  rw [allPredicates, bounds, restrictions, Predicate.equalsInt?_eq, Predicate.equalsInt?_eq]
  simp only [← List.append_assoc]
  refine List.rel_append (List.rel_append (List.rel_append (List.rel_append (List.rel_append
    (List.rel_append (List.rel_append (Relation.restricts_locations _ _) ?year) ?base)
      ?minCurrent) ?maxCurrent) ?minBase) ?minDelta) ?minPercent
  case year => exact Relation.restricts_compared (by decide) (fun _ => Predicate.means_equalsInt) _
  case base => exact Relation.restricts_compared (by decide) (fun _ => Predicate.means_equalsInt) _
  case minCurrent => exact Relation.restricts_compared (plain .current) least _
  case maxCurrent =>
    exact Relation.restricts_compared (plain .current) (fun _ => Predicate.means_atMost) _
  case minBase => exact Relation.restricts_compared (plain .base) least _
  case minDelta => exact Relation.restricts_compared (plain .delta) least _
  case minPercent => exact Relation.restricts_compared (plain .percent) least _

/-! ### Answers and refusals

A read looks up its sort key first, then the key of its level, then the names of its predicates. The
key of the communes is always there, so what is left to fail are the sort key and the sections, in
this order. The other predicates of a comparison are about the metric that it is sorted by, and are
offered when the sort key is. -/

/-- A read is answered if its sort key is offered and sections are told apart, and is restricted by
some conditions and nothing else. Otherwise it is refused for its sort key, or for the sections. -/
structure ReadOutcome (read : Except Fault Statement) (sortBy : String) (sortable apart : Prop)
    (restrictions : List Condition) : Prop where
  answered : (∃ q, read = .ok q) ↔ sortable ∧ apart
  restricted : ∀ q, read = .ok q → q.conditions = restrictions
  refused : ∀ fault, read = .error fault →
    (¬sortable ∧ fault.NamesUnknownField sortBy) ∨
      (sortable ∧ fault.NamesUnknownField "section")

namespace Relation

variable {r : Relation} {predicates : List Predicate} {sortBy : String} {order : SortOrder}
  {limit offset : ℤ}

/-- A read whose predicates fit is answered if all its names are offered. -/
theorem read_ok_iff_offers (fits : ∀ p ∈ predicates, p.Fits) :
    (∃ q, r.read sortBy order predicates limit offset = .ok q) ↔
      ∀ name ∈ sortBy :: r.level.keyField :: predicates.map Predicate.field, r.Offers name := by
  rw [← Outcome.verdict_eq_ok_iff, verdict_read fits, Outcome.verdict_eq_ok_iff,
    Outcome.exists_mapM_eq_ok_iff]
  simp only [Field.onTable_ok_iff_offers]

/-- The names of a read are those of the codes, of the sections, and of its other predicates. -/
theorem mem_names_iff {codes sections : List String} {others : List Predicate} {name : String} :
    name ∈ r.level.keyField :: (Predicate.locations codes sections ++ others).map Predicate.field ↔
      (name = "inseeCode" ∧ (codes ≠ [] ∨ r.level = .commune)) ∨
        (name = "section" ∧ (sections ≠ [] ∨ r.level = .cadastral)) ∨
          name ∈ others.map Predicate.field := by
  rw [Predicate.locations]
  cases level : r.level <;> by_cases hc : codes = [] <;> by_cases hs : sections = [] <;>
    simp [Level.keyField, hc, hs] <;> tauto

/-- **A read is refused for its sort key or for its sections**, if the names of all other
predicates are offered whenever the sort key is. -/
theorem readOutcome {codes sections : List String} {others : List Predicate}
    {conditions : List Condition} (derived : r.family ∈ [Family.delta, .slope])
    (restricts : List.Forall₂ r.Restricts (Predicate.locations codes sections ++ others) conditions)
    (commune : r.Offers "inseeCode") (apart : r.Offers "section" ↔ r.level = .cadastral)
    (certain : r.Offers sortBy → ∀ name ∈ others.map Predicate.field, r.Offers name) :
    ReadOutcome (r.read sortBy order (Predicate.locations codes sections ++ others) limit offset)
      sortBy (r.Offers sortBy) (sections = [] ∨ r.level = .cadastral) conditions := by
  have fits := fits_of_restricts restricts
  refine ⟨?_, fun q answered => ?_, fun fault refused => ?_⟩
  · rw [read_ok_iff_offers fits, List.forall_mem_cons]
    refine and_congr_right fun sortable => ⟨fun offered => ?_, fun told name hname => ?_⟩
    · refine or_iff_not_imp_left.2 fun asked => apart.1 (offered "section" ?_)
      exact mem_names_iff.2 (.inr (.inl ⟨rfl, .inl asked⟩))
    · obtain ⟨rfl, -⟩ | ⟨rfl, needed⟩ | other := mem_names_iff.1 hname
      · exact commune
      · exact apart.2 (needed.elim told.resolve_left id)
      · exact certain sortable name other
  · exact eq_of_compileAll derived restricts (read_eq_ok answered).2.1
  · have names := Outcome.verdict_eq_error_iff.2 refused
    rw [verdict_read fits, Outcome.verdict_eq_error_iff] at names
    obtain ⟨before, name, after, split, earlier, absent, reported⟩ := exists_first_of_refused names
    by_cases sortable : r.Offers sortBy
    · right
      have later : name ∈ r.level.keyField ::
          (Predicate.locations codes sections ++ others).map Predicate.field := by
        have mem : name ∈ sortBy :: r.level.keyField ::
            (Predicate.locations codes sections ++ others).map Predicate.field := by
          rw [split]
          simp
        exact (List.mem_cons.1 mem).resolve_left fun same => absent (same ▸ sortable)
      obtain ⟨rfl, -⟩ | ⟨rfl, -⟩ | other := mem_names_iff.1 later
      · exact absurd commune absent
      · exact ⟨sortable, reported⟩
      · exact absurd (certain sortable name other) absent
    · left
      cases before with
      | nil =>
        obtain rfl : sortBy = name := List.head_eq_of_cons_eq split
        exact ⟨sortable, reported⟩
      | cons first before =>
        obtain rfl : sortBy = first := List.head_eq_of_cons_eq split
        exact absurd (earlier sortBy List.mem_cons_self) sortable

end Relation

namespace DeltaParams

variable (p : DeltaParams)

/-- The predicates of a read of a yearly comparison that are not about locations: about the years,
and the bounds for the parts of its metric. -/
def others : List Predicate :=
  Predicate.equalsInt? "year" p.year ++ (Predicate.equalsInt? "base_year" p.baseYear ++ p.bounds)

theorem allPredicates_eq :
    p.allPredicates = Predicate.locations p.inseeCodes p.sections ++ p.others := by
  rw [allPredicates, others, List.append_assoc, List.append_assoc]

/-- These need nothing but the metric. -/
theorem offers_of_mem_others (measured : p.metric ∈ p.type.measured) {name : String}
    (h : name ∈ p.others.map Predicate.field) : p.relation.Offers name := by
  obtain ⟨keys, -⟩ := Relation.offers_delta_key p.level p.type
  obtain ⟨predicate, hp, rfl⟩ := List.mem_map.1 h
  rw [others, List.mem_append, List.mem_append] at hp
  obtain year | base | bound := hp
  · rw [Predicate.equalsInt?_eq, Option.mem_toList] at year
    obtain ⟨n, -, rfl⟩ := Option.map_eq_some_iff.1 year
    exact keys _ (by simp)
  · rw [Predicate.equalsInt?_eq, Option.mem_toList] at base
    obtain ⟨n, -, rfl⟩ := Option.map_eq_some_iff.1 base
    exact keys _ (by simp)
  · obtain ⟨⟨value, part, operator⟩, -, made⟩ := List.mem_filterMap.1 bound
    obtain ⟨x, -, rfl⟩ := Option.map_eq_some_iff.1 made
    exact Relation.offers_part_iff.2 measured

end DeltaParams

/-- The sort keys of the slopes: the keys of their rows, the window, and the slope of each measure.
A section is one only where sections are told apart. -/
def SlopeParams.Sortable (p : SlopeParams) : Prop :=
  p.sortBy ∈ ["inseeCode", "year", "month"] ∨
    p.sortBy ∈ ["window_months", "window_start_year", "window_start_month"] ∨
      (p.sortBy = "section" ∧ p.level = .cadastral) ∨
        ∃ m, (m ∈ Metric.names ∨ m ∈ p.type.composition) ∧ p.sortBy = m ++ "_slope"

/-- **Reads of comparisons and of slopes are answered exactly for the names of their catalog.**

A comparison is answered if its metric is one of the metrics, or one of the counts of its property
type, and sections are only asked for at their own level; the slopes, if they are sorted by a key,
by the window, or by the slope of one of these. An answered read is restricted to all that is given,
and to nothing else. Any other read is refused for an unknown field: for the sort key if that is
unknown, and otherwise for the sections. -/
theorem derived_reads_resolve :
    (∀ p : DeltaParams, ReadOutcome p.statement (p.sortBy.part.column p.metric)
      (p.metric ∈ Metric.names ∨ p.metric ∈ p.type.composition)
      (p.sections = [] ∨ p.level = .cadastral) p.restrictions) ∧
    ∀ p : SlopeParams, ReadOutcome p.statement p.sortBy p.Sortable
      (p.sections = [] ∨ p.level = .cadastral) p.restrictions := by
  refine ⟨fun p => ?_, fun p => ?_⟩
  · have sortable : p.relation.Offers (p.sortBy.part.column p.metric) ↔
        p.metric ∈ Metric.names ∨ p.metric ∈ p.type.composition :=
      Relation.offers_part_iff.trans List.mem_append
    obtain ⟨keys, apart⟩ := Relation.offers_delta_key p.level p.type
    have restricts := p.restricts_allPredicates
    rw [p.allPredicates_eq] at restricts
    rw [← sortable, DeltaParams.statement, p.allPredicates_eq]
    exact Relation.readOutcome (.head _) restricts (keys _ (by simp)) apart fun offered _ =>
      p.offers_of_mem_others (Relation.offers_part_iff.1 offered)
  · have sortable : p.relation.Offers p.sortBy ↔ p.Sortable := by
      rw [SlopeParams.relation, Relation.offers_slope_iff]
      simp only [PropertyType.measured, List.mem_append]
      rfl
    obtain ⟨commune, apart⟩ := Relation.offers_slope_key p.level p.type
    have restricts := Relation.restricts_locations (r := p.relation) p.inseeCodes p.sections
    have nothing_else := (List.append_nil (Predicate.locations p.inseeCodes p.sections)).symm
    rw [nothing_else] at restricts
    rw [← sortable, SlopeParams.statement, nothing_else]
    exact Relation.readOutcome (.tail _ (.head _)) restricts commune apart (by simp)

end PropertyMarket
