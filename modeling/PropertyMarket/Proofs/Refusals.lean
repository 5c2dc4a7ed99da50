import Mathlib.Data.List.Nodup
import PropertyMarket.Proofs.ComparisonColumns
import PropertyMarket.Proofs.Reads

/-!
# Why a read is refused

A read of a precomputed relation names fields: its sort key, the location key, and those of its
predicates. If every predicate fits, nothing else can go wrong, and a read fails exactly as the
first of these names fails that the relation does not offer. A state of a rollup read names fields
that its rollup offers in any case, so what is left are its sort key, the section if sections are
asked for, and the fields of its filters, in this order.

## Main definitions

* `Table.Offers`, `Relation.Offers` — a field of the family has the name, and the table or the
  relation holds its column
* `Fault.NamesUnknownField` — a failure is reported as an unknown field, under its name
* `FilterState.named` — the names that a state may be refused for, in order

## Main results

* `Field.onTable_ok_iff_offers` — a name has a column exactly if the relation offers it
* `Relation.verdict_read` — a read fails exactly as its names fail
* `FilterState.statement_outcome` — a state is refused for the first name that is not offered, and
  for nothing else

## Implementation notes

How a read fails is compared with how a list of names fails to be looked up, by `Outcome.verdict`,
which forgets the results and keeps the failures. This is what makes the order of the checks a
matter of the order of a list. Names that are certain can then be dropped from the list, since they
never fail, and the first of the remaining ones that is not offered is the one that is reported.
-/

namespace PropertyMarket

/-! ### Names that are offered

A name is offered if it is that of a field and the relation has the column of the field. Both are
plain statements about lists, which mention neither errors nor the order in which things are looked
up. -/

/-- A field of a family has the name, and the table holds the column of the field. -/
def Table.Offers (table : Table) (family : Family) (name : String) : Prop :=
  ∃ f ∈ family.fields, f.name = name ∧ ∃ c ∈ table.columns, c.name = f.column

/-- A field of the family of a relation has the name, and the relation holds the column of the
field. -/
def Relation.Offers (r : Relation) (name : String) : Prop :=
  ∃ f ∈ r.family.fields, f.name = name ∧ ∃ c ∈ r.columns, c.name = f.column

instance (r : Relation) (name : String) : Decidable (r.Offers name) :=
  inferInstanceAs (Decidable (∃ f ∈ r.family.fields, _))

/-- The failure is reported as an unknown field, under the name of the field. A name that no field
has, and a field whose column is missing, are reported alike. -/
def Fault.NamesUnknownField (name : String) (fault : Fault) : Prop :=
  ∃ e, fault = .query e ∧ e.report.kind = .unknownField ∧ e.report.field = .text name

namespace Field

/-- The fields of a family have different names. -/
theorem nodup_names (family : Family) : (family.fields.map name).Nodup := by
  cases family with
  | delta =>
    have columns : Family.delta.fields.map name =
        ["inseeCode", "section", "year", "base_year"] ++ measured.flatMap fun name =>
          Comparison.parts.map fun part => part.column name := by
      rw [Family.fields, List.map_append, List.map_flatMap]
      rfl
    rw [columns]
    exact Comparison.nodup_columns (by decide) (by decide) (by decide +kernel)
  | rollup | slope | transactions => decide +kernel

/-- A field is found under its name. -/
theorem find?_eq_some_iff {family : Family} {name : String} {f : Field} :
    find? family name = some f ↔ f ∈ family.fields ∧ f.name = name := by
  refine ⟨fun h => ⟨mem_fields_of_find? h, find?_name h⟩, ?_⟩
  rintro ⟨hf, rfl⟩
  obtain ⟨g, hg⟩ : ∃ g, find? family f.name = some g := by
    rw [← Option.isSome_iff_exists, find?, List.find?_isSome]
    exact ⟨f, hf, beq_self_eq_true _⟩
  rw [hg, List.inj_on_of_nodup_map (nodup_names family) (mem_fields_of_find? hg) hf (find?_name hg)]

/-- A name has a column exactly if the table offers it to the family. -/
theorem onTable_ok_iff {table : Table} {family : Family} {name : String} :
    (∃ c, onTable table family name = .ok c) ↔ table.Offers family name := by
  simp only [onTable_eq_ok_iff, find?_eq_some_iff]
  constructor
  · rintro ⟨c, f, ⟨hf, rfl⟩, hc⟩
    exact ⟨f, hf, rfl, c, List.mem_of_find?_eq_some hc, Table.name_of_column? hc⟩
  · rintro ⟨f, hf, rfl, c, hc, same⟩
    obtain ⟨d, hd⟩ : ∃ d, table.column? f.column = some d := by
      rw [← Option.isSome_iff_exists, Table.column?, List.find?_isSome]
      exact ⟨c, hc, beq_iff_eq.2 same⟩
    exact ⟨d, f, ⟨hf, rfl⟩, hd⟩

/-- A name has a column exactly if the relation offers it: it is a field of the family, and the
relation holds its column. -/
theorem onTable_ok_iff_offers {r : Relation} {name : String} :
    (∃ c, onTable r.table r.family name = .ok c) ↔ r.Offers name :=
  onTable_ok_iff

/-- A name without a column is refused as an unknown field. -/
theorem namesUnknownField_of_onTable {table : Table} {family : Family} {name : String}
    {fault : Fault} (h : onTable table family name = .error fault) :
    fault.NamesUnknownField name := by
  rw [onTable, resolve] at h
  cases hf : find? family name with
  | none =>
    rw [hf] at h
    obtain rfl := Except.error.inj h
    exact ⟨_, rfl, rfl, rfl⟩
  | some f =>
    rw [hf, Outcome.ok_bind, columnOn] at h
    cases hc : table.column? f.column with
    | none =>
      rw [hc] at h
      obtain rfl := Except.error.inj h
      exact ⟨_, rfl, rfl, congrArg Value.text (find?_name hf)⟩
    | some c =>
      rw [hc] at h
      cases h

end Field

/-! ### Reads

A read whose predicates fit can only fail for a name. All its names are looked up in one order: the
sort key, the location key, and then the predicates. -/

namespace Relation

variable {r : Relation} {fault : Fault}

/-- Names are refused for the first of them that the relation does not offer. -/
theorem exists_first_of_refused {names : List String}
    (h : names.mapM (Field.onTable r.table r.family) = .error fault) :
    ∃ before name after, names = before ++ name :: after ∧ (∀ n ∈ before, r.Offers n) ∧
      ¬r.Offers name ∧ fault.NamesUnknownField name := by
  obtain ⟨before, name, after, split, earlier, here⟩ := Outcome.mapM_eq_error_iff.1 h
  refine ⟨before, name, after, split, fun n hn => Field.onTable_ok_iff_offers.1 (earlier n hn), ?_,
    Field.namesUnknownField_of_onTable here⟩
  intro offered
  obtain ⟨c, hc⟩ := Field.onTable_ok_iff_offers.2 offered
  nomatch hc.symm.trans here

/-- A read whose predicates fit fails exactly as the names of its sort keys and its predicates
fail, in this order. -/
theorem verdict_read {predicates : List Predicate} (fits : ∀ p ∈ predicates, p.Fits)
    (sortBy : String) (order : SortOrder) (limit offset : Int) :
    Outcome.verdict (r.read sortBy order predicates limit offset) =
      Outcome.verdict ((sortBy :: r.level.keyField :: predicates.map Predicate.field).mapM
        (Field.onTable r.table r.family)) := by
  have keys : Outcome.verdict (SortSpec.compileAll r.table r.family []
      [⟨sortBy, some order⟩, ⟨r.level.keyField, none⟩]) =
      Outcome.verdict ([sortBy, r.level.keyField].mapM (Field.onTable r.table r.family)) := by
    simp only [SortSpec.compileAll, Outcome.verdict_mapM_cons, SortSpec.compile_nil,
      Outcome.verdict_map]
    rfl
  have conditions : Outcome.verdict (Predicate.compileAll r.table r.family predicates) =
      Outcome.verdict ((predicates.map Predicate.field).mapM (Field.onTable r.table r.family)) := by
    rw [Predicate.compileAll, List.mapM_map]
    refine Outcome.verdict_mapM_congr fun p hp => ?_
    obtain ⟨f, hf⟩ := (fits p hp).compile_eq r.table r.family
    rw [hf, Outcome.verdict_map, Function.comp_apply]
  have parts := Outcome.verdict_mapM_append (Field.onTable r.table r.family)
    [sortBy, r.level.keyField] (predicates.map Predicate.field)
  rw [List.cons_append, List.cons_append, List.nil_append] at parts
  rw [parts, ← keys, ← conditions]
  exact Outcome.verdict_bind fun _ => Outcome.verdict_map _ _

end Relation

/-! ### States

A state makes its predicates itself, so they always fit. Most of their names are those of keys that
the rollup of the state has by the way it is chosen. -/

namespace FilterState

/-- The names that a state may be refused for, in order: its sort key, the section if sections are
asked for, and the fields of its filters. All other names that it gives are offered in any case. -/
def named (s : FilterState) : List String :=
  s.sortBy :: ((if s.sections = [] then [] else ["section"]) ++ (s.filters.getD []).map Prod.fst)

/-- The names that a state gives in any case: the location key and the fields of its period and of
its codes. -/
def certain (s : FilterState) : List String :=
  s.level.keyField :: "year" :: ((if s.month = none then [] else ["month"]) ++
    if s.inseeCodes = [] then [] else ["inseeCode"])

theorem offers_iff {s : FilterState} {name : String} :
    (∃ c, Field.onTable s.relation.table .rollup name = .ok c) ↔ s.relation.Offers name :=
  Field.onTable_ok_iff_offers

/-- A dimension is offered exactly if it is a key of the rollup. -/
theorem offers_dimension_iff {s : FilterState} {name : String} (h : name ∈ Dimension.names) :
    s.relation.Offers name ↔ Field.IsKeyOf s.level s.grain name :=
  offers_iff.symm.trans (Field.onTable_dimension_iff (r := s.relation) rfl s.grain_ne_week h)

/-- Sections are told apart at their own level only. -/
theorem offers_section_iff {s : FilterState} :
    s.relation.Offers "section" ↔ s.level = .cadastral := by
  rw [offers_dimension_iff (by decide)]
  simp [Field.IsKeyOf]

theorem offers_of_mem_certain {s : FilterState} {name : String} (h : name ∈ s.certain) :
    s.relation.Offers name := by
  simp only [certain, List.mem_cons, List.mem_append, List.mem_ite_nil_left, List.not_mem_nil,
    or_false] at h
  obtain rfl | rfl | ⟨month, rfl⟩ | ⟨-, rfl⟩ := h
  · cases level : s.level with
    | commune => exact (offers_dimension_iff (by decide)).2 (.inl rfl)
    | cadastral => exact offers_section_iff.2 level
  · exact (offers_dimension_iff (by decide)).2 (.inr (.inl rfl))
  · exact (offers_dimension_iff (by decide)).2
      (.inr (.inr (.inr ⟨rfl, grain_eq_month_iff.2 month⟩)))
  · exact (offers_dimension_iff (by decide)).2 (.inl rfl)

/-- The names of a read, in order: behind the sort key those that are certain, then the others that
it may be refused for. -/
theorem names_eq (s : FilterState) :
    s.level.keyField :: s.allPredicates.map Predicate.field =
      s.certain ++ ((if s.sections = [] then [] else ["section"]) ++
        (s.filters.getD []).map Prod.fst) := by
  have filters : s.predicates.map Predicate.field = (s.filters.getD []).map Prod.fst := by
    rw [predicates, List.map_map]
    rfl
  rw [allPredicates, List.map_append, filters, Predicate.locations, certain]
  cases s.month <;> by_cases codes : s.inseeCodes = [] <;> by_cases sections : s.sections = [] <;>
    simp [Predicate.equalsInt?, codes, sections]

/-- A state fails exactly as its names fail. -/
theorem verdict_statement (s : FilterState) :
    Outcome.verdict s.statement =
      Outcome.verdict (s.named.mapM (Field.onTable s.relation.table s.relation.family)) := by
  have fits : ∀ p ∈ s.allPredicates, p.Fits := fun _ hp => fits_of_mem hp
  have certain : Outcome.verdict
      (s.certain.mapM (Field.onTable s.relation.table s.relation.family)) = .ok () :=
    Outcome.verdict_eq_ok_iff.2 (Outcome.exists_mapM_eq_ok_iff.2 fun n hn =>
      offers_iff.2 (offers_of_mem_certain hn))
  have others : Outcome.verdict ((s.level.keyField :: s.allPredicates.map Predicate.field).mapM
      (Field.onTable s.relation.table s.relation.family)) =
      Outcome.verdict (((if s.sections = [] then [] else ["section"]) ++
        (s.filters.getD []).map Prod.fst).mapM
        (Field.onTable s.relation.table s.relation.family)) := by
    rw [names_eq, Outcome.verdict_mapM_append, certain, Outcome.ok_bind]
  rw [statement_eq, Relation.verdict_read fits, named]
  refine (Outcome.verdict_mapM_cons _ _ _).trans ?_
  rw [show s.relation.level = s.level from rfl, others]
  exact (Outcome.verdict_mapM_cons _ _ _).symm

/-- **A state is refused for the first name that its rollup does not offer, and for nothing else.**

It has a statement exactly if its sort key is offered, sections are only asked for at their own
level, and the field of each filter is offered. The names are tried in the order of
`FilterState.named`, so a state with several faults is refused for the same one each time. -/
theorem statement_outcome (s : FilterState) :
    ((∃ q, s.statement = .ok q) ↔ s.relation.Offers s.sortBy ∧
      (s.sections ≠ [] → s.level = .cadastral) ∧
      ∀ f ∈ s.filters.getD [], s.relation.Offers f.1) ∧
    ∀ fault, s.statement = .error fault → ∃ before name after,
      s.named = before ++ name :: after ∧ (∀ n ∈ before, s.relation.Offers n) ∧
      ¬s.relation.Offers name ∧ fault.NamesUnknownField name := by
  constructor
  · rw [statement_ok_iff, offers_iff]
    simp only [offers_iff]
  · intro fault refused
    have names := Outcome.verdict_eq_error_iff.2 refused
    rw [verdict_statement, Outcome.verdict_eq_error_iff] at names
    exact Relation.exists_first_of_refused names

end FilterState

end PropertyMarket
