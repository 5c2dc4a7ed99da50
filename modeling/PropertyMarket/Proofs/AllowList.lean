import PropertyMarket.Proofs.PercentText
import PropertyMarket.Proofs.References
import PropertyMarket.Proofs.Request

/-!
# Statements keep to the allow-list

A request names fields by arbitrary text: in its predicates, in its sort keys, in what it shows,
groups by and computes, and in the labels that are made of these names. Whatever the text, a
statement that comes of it reads the one table of the request, reaches only columns of that table
which stand for fields of its family, and writes only labels that are made of the names of such
fields.

## Main definitions

* `IsLabel` — the labels that a statement may write
* `Query.AllowListed` — a statement over one table that keeps to the fields of one family
* `Request.Admitted` — the numbers of percent of a request are from 0 to 100

## Main results

* `IsLabel.isLabelText` — labels are letters, digits, `_` and `-`
* `Request.admitted_of_read` — a request that has been read is admitted
* `Request.allowListed_of_statement` — the statement of an admitted request keeps to the allow-list

## Implementation notes

How a statement is built is described once, by `Request.Built`, and each part of the allow-list is
read off from that description: what is shown, what is grouped by, the labels, the sort keys. So no
proof here goes through the six kinds of requests; that is done where `Built` is proved of their
statements.

The only hypothesis is on the numbers of percent, which are written into labels. A request that has
been read fulfils it, since a number of percent outside of the range is refused when it is read; a
request that is put together by hand need not.
-/

namespace PropertyMarket

/-! ### Labels

A label is the only text that a statement takes from a request without binding it. It is never taken
as it comes: it is made of the name of a known field, of the words of aggregates, and of digits. -/

/-- The labels that a statement may write: the name of a field, alone, after an aggregate, or
between the word for percentiles and a number of percent; and one fixed label. -/
inductive IsLabel (family : Family) : String → Prop
  | field {f : Field} (hf : f ∈ family.fields) : IsLabel family f.name
  | aggregate (a : Aggregate) {f : Field} (hf : f ∈ family.fields) :
    IsLabel family (Vocabulary.word a ++ "_" ++ f.name)
  | percentile {f : Field} (hf : f ∈ family.fields) {p : Double} (hp : p.IsPercent) :
    IsLabel family (Computation.percentileLabel f.name (Computation.percentText p))
  | pricePerArea : IsLabel family "avgPricePerM2"

namespace Field

theorem isLabelText_measured : ∀ name ∈ measured, IsLabelText name := by
  decide +kernel

theorem isLabelText_dimension {family : Family} {names : List String} {f : Field}
    (h : f ∈ dimensions family names) : IsLabelText f.name := by
  have known : ∀ name ∈ Dimension.names, IsLabelText name := by
    decide +kernel
  exact known f.name (name_of_mem_dimensions h)

/-- Fields go by letters, digits and `_`. -/
theorem isLabelText_name {family : Family} {f : Field} (hf : f ∈ family.fields) :
    IsLabelText f.name := by
  cases family with
  | rollup =>
    rcases List.mem_append.1 hf with hf | hf
    · exact isLabelText_dimension hf
    · obtain ⟨name, hname, rfl⟩ := List.mem_map.1 hf
      exact isLabelText_measured name hname
  | delta =>
    simp only [Family.fields, List.mem_append, List.mem_singleton, List.mem_flatMap,
      List.mem_map] at hf
    rcases hf with (hf | rfl) | ⟨name, hname, part, -, rfl⟩
    · exact isLabelText_dimension hf
    · decide +kernel
    · have suffix : IsLabelText ("_" ++ Vocabulary.word part) := by
        cases part <;> decide +kernel
      have written := (isLabelText_measured name hname).append suffix
      rwa [← String.append_assoc] at written
  | slope =>
    simp only [Family.fields, List.mem_append, List.mem_map] at hf
    rcases hf with (hf | ⟨name, hname, rfl⟩) | ⟨name, hname, rfl⟩
    · exact isLabelText_dimension hf
    · have known : ∀ name ∈ windowColumns, IsLabelText name := by
        decide +kernel
      exact known name hname
    · exact (isLabelText_measured name hname).append (by decide +kernel)
  | transactions =>
    have known : ∀ f ∈ Family.transactions.fields, IsLabelText f.name := by
      decide +kernel
    exact known f hf

end Field

theorem Aggregate.isLabelText_word (a : Aggregate) : IsLabelText (Vocabulary.word a) := by
  cases a <;> decide +kernel

/-- Labels are letters, digits, `_` and `-`. So none of them can end the quotes in which it is
written, or be mistaken for anything else. -/
theorem IsLabel.isLabelText {family : Family} {label : String} (h : IsLabel family label) :
    IsLabelText label := by
  have line : IsLabelText "_" := by decide +kernel
  cases h with
  | field hf => exact Field.isLabelText_name hf
  | aggregate a hf => exact (a.isLabelText_word.append line).append (Field.isLabelText_name hf)
  | percentile hf hp =>
    have word : IsLabelText "percentile_" := by decide +kernel
    exact ((word.append (Field.isLabelText_name hf)).append line).append
      (Computation.isLabelText_percentText hp)
  | pricePerArea => decide +kernel

/-! ### What is shown under a label

Groups, aggregates and percentiles are all terms with a label, and for each of them the same two
things are proved: the columns they reach are allowed, and so is the label. -/

/-- A number of percent, if there is one, is from 0 to 100, as it is in every computation that has
been read. -/
def Computation.Admitted : Computation → Prop
  | percentile _ p => p.IsPercent
  | pricePerArea => True

instance : DecidablePred Computation.Admitted
  | .percentile _ p => inferInstanceAs (Decidable p.IsPercent)
  | .pricePerArea => inferInstanceAs (Decidable True)

namespace Produced

variable {table : Table} {family : Family}

/-- A labelled term that reaches allowed columns only, under a label that may be written. Both are
what has to be known of a term to show it. -/
structure Allowed (table : Table) (family : Family) (p : Produced) : Prop where
  references : ∀ r ∈ p.term.references false, r.Allowed table family
  label : IsLabel family p.label

theorem isLabel_of_find? {name : String} {f : Field} (h : Field.find? family name = some f) :
    IsLabel family name :=
  Field.find?_name h ▸ .field (Field.mem_fields_of_find? h)

theorem allowed_of_ofSale {name : String} {p : Produced} (h : ofSale name = .ok p) :
    p.Allowed .sales .transactions := by
  obtain ⟨c, hc, rfl⟩ := ofSale_eq_ok h
  obtain ⟨f, hf, -⟩ := Field.onTable_eq_ok_iff.1 hc
  exact ⟨Reference.allowed_of_onTable hc, isLabel_of_find? hf⟩

theorem allowed_of_groupBy {name : String} {p : Produced} (h : groupBy table family name = .ok p) :
    p.Allowed table family := by
  obtain ⟨f, c, hf, -, hc, rfl⟩ := groupBy_eq_ok h
  exact ⟨Reference.allowed_of_field hf hc (by simp), isLabel_of_find? hf⟩

theorem allowed_of_metric {m : MetricSpec} {p : Produced} (h : m.compile table family = .ok p) :
    p.Allowed table family := by
  obtain ⟨a, f, c, word, hf, numeric, hc, rfl⟩ := MetricSpec.compile_eq_ok h
  have name := Field.find?_name hf
  refine ⟨?_, ?_⟩
  · cases a with
    | count => exact Reference.allowed_of_field hf hc (by simp)
    | _ => exact Reference.allowed_of_field hf hc fun _ => numeric (by decide)
  · rw [MetricSpec.label, word, ← name]
    exact .aggregate a (Field.mem_fields_of_find? hf)

/-- The two columns of prices by area are both measured. -/
theorem mem_references_ratio {price area : Term} {type : ColumnType} {r : Reference}
    (h : r ∈ (Computation.ratio price area type).references false) :
    r ∈ price.references true ∨ r ∈ area.references true := by
  simp only [Computation.ratio, Term.references, Condition.references, List.append_nil,
    List.mem_append] at h
  tauto

theorem numeric_of_operand {name : String} (hname : name ∈ ["price", "floorArea"]) {f : Field}
    (hf : Field.find? .transactions name = some f) : f.numeric = true := by
  have known : ∀ name ∈ ["price", "floorArea"],
      (Field.find? .transactions name).all Field.numeric = true := by
    decide
  have numeric := known name hname
  rwa [hf] at numeric

/-- A computation over the raw sales measures numeric fields only. The fixed one, prices by area,
names no field, and the two columns that it measures belong to numeric fields. -/
theorem allowed_of_computation {k : Computation} (admitted : k.Admitted) {p : Produced}
    (h : k.compile .sales .transactions = .ok p) : p.Allowed .sales .transactions := by
  obtain ⟨name, percent, f, c, rfl, hf, numeric, hc, rfl⟩ |
      ⟨price, area, rfl, hprice, harea, rfl⟩ :=
    Computation.compile_eq_ok h
  · refine ⟨Reference.allowed_of_field hf hc fun _ => numeric, ?_⟩
    show IsLabel .transactions (Computation.percentileLabel name (Computation.percentText percent))
    rw [← Field.find?_name hf]
    exact .percentile (Field.mem_fields_of_find? hf) admitted
  · obtain ⟨f, hf, hprice⟩ := Field.onTable_eq_ok_iff.1 hprice
    obtain ⟨g, hg, harea⟩ := Field.onTable_eq_ok_iff.1 harea
    refine ⟨fun r hr => ?_, .pricePerArea⟩
    rcases mem_references_ratio hr with hr | hr
    · exact Reference.allowed_of_field hf hprice (fun _ => numeric_of_operand (by decide) hf) r hr
    · exact Reference.allowed_of_field hg harea (fun _ => numeric_of_operand (by decide) hg) r hr

end Produced

/-! ### Statements

The columns of a statement stand in what it shows, in its groups, in its conditions and in its sort
keys. For each of these places the compiler has looked the name up before it made a term of it. -/

/-- A statement over one table that keeps to the fields of one family. The parts say so of its
source, of the columns it reaches, of its groups and aggregates, and of its labels. -/
structure Query.AllowListed (q : Statement) (table : Table) (family : Family) : Prop where
  /-- No other table is read. -/
  source : q.source = .ofTable table
  /-- Every column is declared by the table and stands for a field, a measured one for a numeric
  field. -/
  references : ∀ r ∈ q.references, r.Allowed table family
  /-- Every group is the column of a groupable field. -/
  groups : ∀ term ∈ q.groups, ∃ f ∈ family.fields, f.groupable = true ∧
    ∃ c ∈ table.columns, c.name = f.column ∧ term = .ofColumn table c
  /-- Every label is made of the name of a field, or is the fixed one. -/
  labels : ∀ o ∈ q.outputs, ∀ label, o.label = some label →
    IsLabel family label ∧ IsLabelText label
  /-- A sort key names no label but those that are shown. -/
  sort : ∀ k ∈ q.sort, ∀ label, k.target = .label label → ∃ o ∈ q.outputs, o.label = some label

namespace Request

variable {r : Request} {q : Statement} {groups produced : List Produced}

/-- The numbers of percent of a request are from 0 to 100. Requests that have been read are so, by
`Request.admitted_of_read`. -/
def Admitted : Request → Prop
  | sales (.calculate args) => ∀ k ∈ args.computations, k.Admitted
  | _ => True

/-- A request that has been read is admitted, so the result below applies to all requests that come
from outside. -/
theorem admitted_of_read {kind : Operation.Kind} {v : Value} {o : Operation}
    (h : kind.read v = .valid o) : (sales o).Admitted := by
  cases kind with
  | query =>
    obtain ⟨_, -, rfl⟩ := Checked.map_eq_valid h
    trivial
  | aggregate =>
    obtain ⟨_, -, rfl⟩ := Checked.map_eq_valid h
    trivial
  | calculate =>
    obtain ⟨args, hargs, rfl⟩ := Checked.map_eq_valid h
    intro k hk
    cases v with
    | record fields =>
      -- The five fields of the arguments, each joined to the ones before it.
      obtain ⟨_, _, hfour, -, rfl⟩ := Checked.seq_eq_valid.1 hargs
      obtain ⟨_, _, hthree, -, rfl⟩ := Checked.seq_eq_valid.1 hfour
      obtain ⟨_, _, htwo, -, rfl⟩ := Checked.seq_eq_valid.1 hthree
      obtain ⟨_, _, hone, hcomputations, rfl⟩ := Checked.seq_eq_valid.1 htwo
      obtain ⟨_, -, rfl⟩ := Checked.map_eq_valid hone
      obtain ⟨_, hlist⟩ := Key.required_eq_valid hcomputations
      obtain ⟨_, hread⟩ := Reader.exists_of_mem_nonEmpty hlist k hk
      cases k with
      | percentile name p => exact Computation.isPercent_of_read hread
      | pricePerArea => trivial
    | _ => nomatch hargs

theorem relation_family {relation : Relation} (h : r.relation? = some relation) :
    relation.family ≠ .transactions := by
  cases r with
  | rollup | delta | slope =>
    obtain rfl := Option.some.inj h
    exact nofun
  | sales => nomatch h

/-- What a request shows under labels reaches allowed columns. -/
theorem Built.allowed (admitted : r.Admitted) (built : r.Built q groups produced) :
    ∀ p ∈ groups ++ produced, p.Allowed r.table r.family := by
  intro p hp
  rcases List.mem_append.1 hp with hp | hp
  · obtain ⟨name, -, hname⟩ := Outcome.exists_of_mem_mapM built.groupBy_eq p hp
    exact Produced.allowed_of_groupBy hname
  · have made := built.produced_eq
    cases r with
    | rollup | delta | slope =>
      obtain rfl := Except.ok.inj made
      nomatch hp
    | sales o =>
      cases o with
      | query args =>
        obtain ⟨name, -, hname⟩ := Outcome.exists_of_mem_mapM made p hp
        exact Produced.allowed_of_ofSale hname
      | aggregate args =>
        obtain ⟨m, -, hm⟩ := Outcome.exists_of_mem_mapM made p hp
        exact Produced.allowed_of_metric hm
      | calculate args =>
        obtain ⟨k, hk, hcompile⟩ := Outcome.exists_of_mem_mapM made p hp
        exact Produced.allowed_of_computation (admitted k hk) hcompile

theorem Built.references_of_output (admitted : r.Admitted) (built : r.Built q groups produced)
    {o : Output} (ho : o ∈ q.outputs) :
    ∀ ref ∈ o.term.references false, ref.Allowed r.table r.family := by
  rcases built.output_cases ho with ⟨p, hp, rfl⟩ | ⟨relation, hr, ho⟩
  · exact (built.allowed admitted p hp).references
  · rw [table, family, hr]
    exact Relation.allowed_of_output (relation_family hr) ho

theorem Built.references (admitted : r.Admitted) (built : r.Built q groups produced) :
    ∀ ref ∈ q.references, ref.Allowed r.table r.family := by
  intro ref href
  simp only [Query.references, List.mem_append, List.mem_flatMap] at href
  rcases href with ((⟨o, ho, href⟩ | ⟨c, hc, href⟩) | ⟨term, hterm, href⟩) | ⟨k, hk, href⟩
  · exact built.references_of_output admitted ho ref href
  · obtain ⟨p, -, hp⟩ := Outcome.exists_of_mem_mapM built.conditions_eq c hc
    exact Reference.allowed_of_compile hp ref href
  · rw [built.groups_eq] at hterm
    obtain ⟨p, hp, rfl⟩ := List.mem_map.1 hterm
    exact (built.allowed admitted p (List.mem_append_left _ hp)).references ref href
  · obtain ⟨s, -, hs⟩ := Outcome.exists_of_mem_mapM built.sort_eq k hk
    exact Reference.allowed_of_sort hs ref href

/-- The groups are columns of groupable fields. -/
theorem Built.groupable (built : r.Built q groups produced) :
    ∀ term ∈ q.groups, ∃ f ∈ r.family.fields, f.groupable = true ∧
      ∃ c ∈ r.table.columns, c.name = f.column ∧ term = .ofColumn r.table c := by
  intro term hterm
  rw [built.groups_eq] at hterm
  obtain ⟨p, hp, rfl⟩ := List.mem_map.1 hterm
  obtain ⟨name, -, hname⟩ := Outcome.exists_of_mem_mapM built.groupBy_eq p hp
  obtain ⟨f, c, hf, groupable, hc, rfl⟩ := Produced.groupBy_eq_ok hname
  exact ⟨f, Field.mem_fields_of_find? hf, groupable, c, List.mem_of_find?_eq_some hc,
    Table.name_of_column? hc, rfl⟩

/-- Only what is labelled has a label. -/
theorem Built.labels (admitted : r.Admitted) (built : r.Built q groups produced) :
    ∀ o ∈ q.outputs, ∀ label, o.label = some label → IsLabel r.family label := by
  intro o ho label hlabel
  rcases built.output_cases ho with ⟨p, hp, rfl⟩ | ⟨relation, -, ho⟩
  · obtain rfl := Option.some.inj hlabel
    exact (built.allowed admitted p hp).label
  · obtain ⟨c, -, rfl⟩ := List.mem_map.1 ho
    nomatch hlabel

/-- A label that sort keys may name is shown. Otherwise a statement could be sorted by something
that it does not have. -/
theorem exists_output_of_label {shown : List Produced} {label : String}
    (h : label ∈ r.labels shown) : ∃ o ∈ r.outputs shown, o.label = some label := by
  have grouped (h : label ∈ shown.map Produced.label) :
      ∃ o ∈ shown.map Produced.output, o.label = some label := by
    obtain ⟨p, hp, rfl⟩ := List.mem_map.1 h
    exact ⟨p.output, List.mem_map_of_mem hp, rfl⟩
  cases r with
  | rollup | delta | slope => nomatch h
  | sales o =>
    cases o with
    | query => nomatch h
    | aggregate => exact grouped h
    | calculate => exact grouped h

theorem Built.sort (built : r.Built q groups produced) :
    ∀ k ∈ q.sort, ∀ label, k.target = .label label → ∃ o ∈ q.outputs, o.label = some label := by
  intro k hk label hlabel
  obtain ⟨s, -, hs⟩ := Outcome.exists_of_mem_mapM built.sort_eq k hk
  obtain ⟨listed, rfl⟩ | ⟨c, -, rfl⟩ := SortSpec.compile_eq_ok hs
  · obtain rfl : s.field = label := by injection hlabel
    rw [built.outputs_eq]
    exact exists_output_of_label listed
  · nomatch hlabel

/-- **Whatever text a request holds, its statement keeps to the allow-list.**

The statement reads the table of the request and no other; it reaches only columns that the table
declares and that stand for fields of its family, groups by groupable fields only and measures
numeric fields only; and its labels are made of the names of fields. -/
theorem allowListed_of_statement (admitted : r.Admitted) (h : r.statement = .ok q) :
    q.AllowListed r.table r.family := by
  obtain ⟨groups, produced, built⟩ := built_of_statement h
  exact {
    source := built.source_eq
    references := built.references admitted
    groups := built.groupable
    labels := fun o ho label hlabel =>
      have made := built.labels admitted o ho label hlabel
      ⟨made, made.isLabelText⟩
    sort := built.sort }

end Request

/-- Prices by year, sorted by what is computed of them: a percentile whose number of percent has
places, which its label writes with an underscore. -/
def Request.pricesByYear : Request :=
  .sales (.calculate {
    groupBy := ["year"]
    computations := [.percentile "price" (.finite false (5 * 2 ^ 50) (-51)), .pricePerArea]
    sort := [⟨"percentile_price_2_5", some .desc⟩, ⟨"floorArea", none⟩] })

theorem Request.allowListed_pricesByYear :
    pricesByYear.Admitted ∧ ∃ q, pricesByYear.statement = .ok q ∧
      q.AllowListed .sales .transactions := by
  have admitted : pricesByYear.Admitted := by
    simp only [pricesByYear, Admitted]
    decide +kernel
  exact ⟨admitted, _, rfl, allowListed_of_statement admitted rfl⟩

end PropertyMarket
