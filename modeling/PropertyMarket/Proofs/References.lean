import PropertyMarket.Proofs.Compiled

/-!
# What a statement reaches

A statement reaches the store through the columns that its terms name. This module collects them,
wherever they stand, and says of each part of a statement that it reaches nothing but columns that
the table declares and that a field of the family stands for.

## Main definitions

* `Reference` — a column that is named, and whether it is measured
* `Term.references`, `Condition.references`, `Query.references` — the columns that are named
* `Reference.Allowed` — the column is declared by the table and stands for a field

## Main results

* `Reference.allowed_of_compile` — the condition of a predicate reaches an allowed column
* `Relation.exists_field_of_mem` — every column of a precomputed relation stands for a field

## Implementation notes

References are collected by going through the whole statement, and not by asking the compiler what
it has looked up, so nothing that a statement names can be missed. Under an aggregate a column
counts as measured, because then its numbers and not just its presence go into the result; a count
is the exception.

That a column which is found under a name is allowed is almost the definition of looking it up. What
needs going through cases is the opposite direction, for the reads that show all columns of a
relation without having looked any of them up.
-/

namespace PropertyMarket

/-- A column that a term names: the table by which it is reached, its name, and how it is used. -/
structure Reference where
  source : String
  name : String
  /-- Does it stand under a sum, an average, an extreme, a percentile or a slope? -/
  measured : Bool

mutual

/-- The columns that a term names, each with whether it is measured there. -/
def Term.references (measured : Bool) : Term → List Reference
  | .column source name => [⟨source, name, measured⟩]
  | .bound _ | .truth _ | .null | .countRows => []
  | .arithmetic _ left right => left.references measured ++ right.references measured
  | .cast term _ | .round term _ | .coalesce term _ => term.references measured
  -- A count only looks at whether there is a value.
  | .aggregate .count argument => argument.references measured
  | .aggregate _ argument | .percentile _ argument => argument.references true
  | .slope y x => y.references true ++ x.references true
  | .choice condition yes no =>
    condition.references measured ++ yes.references measured ++
      match no with
      | some term => term.references measured
      | none => []

/-- The columns that a condition names, in all of its terms. -/
def Condition.references (measured : Bool) : Condition → List Reference
  | .compare _ left right => left.references measured ++ right.references measured
  | .between term _ _ | .oneOf term _ | .matches term _ | .isNull term | .isNotNull term =>
    term.references measured
  | .either first second => first.references measured ++ second.references measured
  | .intersects shape _ _ _ _ => shape.references measured

end

/-- The columns that a sort key names; a label names none, as it stands for a column that is
shown. -/
def SortKey.references (k : SortKey) : List Reference :=
  match k.target with
  | .term term => term.references false
  | .label _ => []

/-- The columns that a selection names: in what it shows, in its conditions, in its groups and in
its sort keys. -/
def Query.references {σ : Type} (q : Query σ) : List Reference :=
  q.outputs.flatMap (fun o => o.term.references false) ++
    q.conditions.flatMap (Condition.references false) ++
    q.groups.flatMap (Term.references false) ++ q.sort.flatMap SortKey.references

namespace Reference

variable {table : Table} {family : Family}

/-- The column is declared by the table and stands for a field of the family, for a numeric one if
it is measured. The table is the one that the request reads. -/
structure Allowed (table : Table) (family : Family) (r : Reference) : Prop where
  source : r.source = table.name
  declared : ∃ c ∈ table.columns, c.name = r.name
  listed : ∃ f ∈ family.fields, f.column = r.name ∧ (r.measured = true → f.numeric = true)

/-! ### Columns of fields

A name becomes a column by way of a field, so each column that comes of a name is allowed. A
condition, and a sort key, names the column of its field and no other. -/

/-- The column of a field is allowed; measured, if the field is numeric. -/
theorem allowed_of_field {f : Field} {c : Column} {name : String} {measured : Bool}
    (hf : Field.find? family name = some f) (hc : table.column? f.column = some c)
    (numeric : measured = true → f.numeric = true) :
    ∀ r ∈ (Term.ofColumn table c).references measured, r.Allowed table family := by
  intro r hr
  obtain rfl : r = ⟨table.name, c.name, measured⟩ := List.mem_singleton.1 hr
  have same : c.name = f.column := Table.name_of_column? hc
  exact {
    source := rfl
    declared := ⟨c, List.mem_of_find?_eq_some hc, rfl⟩
    listed := ⟨f, Field.mem_fields_of_find? hf, same.symm, numeric⟩ }

theorem allowed_of_onTable {c : Column} {name : String}
    (h : Field.onTable table family name = .ok c) :
    ∀ r ∈ (Term.ofColumn table c).references false, r.Allowed table family := by
  obtain ⟨f, hf, hc⟩ := Field.onTable_eq_ok_iff.1 h
  exact allowed_of_field hf hc (by simp)

/-- A condition reaches what its predicate asks about, and nothing else. -/
theorem references_of_asks {p : Predicate} {term : Term} {condition : Condition}
    (h : p.Asks term condition) : condition.references false = term.references false := by
  cases h <;> simp [Condition.references, Term.references]

/-- The condition of a predicate reaches an allowed column: the one of its field, and no other. -/
theorem allowed_of_compile {p : Predicate} {condition : Condition}
    (h : p.compile table family = .ok condition) :
    ∀ r ∈ condition.references false, r.Allowed table family := by
  obtain ⟨o, c, -, hc, happly⟩ := Predicate.compile_eq_ok h
  rw [references_of_asks (Operator.asks_of_apply happly)]
  exact allowed_of_onTable hc

/-- A sort key reaches an allowed column, or none. -/
theorem allowed_of_sort {labels : List String} {s : SortSpec} {k : SortKey}
    (h : s.compile table family labels = .ok k) :
    ∀ r ∈ k.references, r.Allowed table family := by
  obtain ⟨-, rfl⟩ | ⟨c, hc, rfl⟩ := SortSpec.compile_eq_ok h
  · simp [SortKey.references]
  · exact allowed_of_onTable hc

end Reference

/-! ### Columns of precomputed relations

A relation is declared as a list of columns, and its family as a list of fields. That each of the
columns stands for one of the fields is shown family by family: keys are dimensions, and all others
are made of names that the family has too. -/

namespace Relation

/-- A dimension among some names stands for its column. -/
theorem exists_dimension {family : Family} {names : List String} {d : Dimension}
    (hd : d ∈ Dimension.catalog) (hname : d.name ∈ names) :
    ∃ f ∈ Field.dimensions family names, f.column = d.column := by
  refine ⟨Field.ofDimension family d, List.mem_map_of_mem ?_, rfl⟩
  exact List.mem_filter.2 ⟨hd, by simpa using hname⟩

/-- The columns that say where are those of the two dimensions of place. -/
theorem exists_location {family : Family} {level : Level} (others : List String) {c : Column}
    (hc : c ∈ locationColumns level) :
    ∃ f ∈ Field.dimensions family ("inseeCode" :: "section" :: others), f.column = c.name := by
  have known : ∀ c ∈ locationColumns level,
      ∃ d ∈ Dimension.catalog, d.name ∈ ["inseeCode", "section"] ∧ d.column = c.name := by
    cases level <;> decide
  obtain ⟨d, hd, hname, same⟩ := known c hc
  exact same ▸ exists_dimension hd (List.mem_append_left others hname)

theorem exists_period {family : Family} {grain : TimeGrain} {c : Column}
    (hc : c ∈ periodColumns grain) :
    ∃ f ∈ Field.dimensions family Dimension.names, f.column = c.name := by
  have known : ∀ c ∈ periodColumns grain,
      ∃ d ∈ Dimension.catalog, d.name ∈ Dimension.names ∧ d.column = c.name := by
    cases grain <;> decide
  obtain ⟨d, hd, hname, same⟩ := known c hc
  exact same ▸ exists_dimension hd hname

theorem rollup_field_of_mem {level : Level} {type : PropertyType} {grain : TimeGrain} {c : Column}
    (hc : c ∈ columns ⟨.rollup, level, type, grain⟩) :
    ∃ f ∈ Family.rollup.fields, f.column = c.name := by
  simp only [columns, List.mem_append, List.mem_map] at hc
  rcases hc with hc | hc | ⟨name, hname, rfl⟩
  · obtain ⟨f, hf, same⟩ := exists_location (Dimension.names.drop 2) hc
    exact ⟨f, List.mem_append_left _ hf, same⟩
  · obtain ⟨f, hf, same⟩ := exists_period hc
    exact ⟨f, List.mem_append_left _ hf, same⟩
  · exact ⟨_, List.mem_append_right _ (List.mem_map_of_mem (measured_subset hname)), rfl⟩

theorem delta_field_of_mem {level : Level} {type : PropertyType} {grain : TimeGrain} {c : Column}
    (hc : c ∈ columns ⟨.delta, level, type, grain⟩) :
    ∃ f ∈ Family.delta.fields, f.column = c.name := by
  simp only [columns, List.mem_append, List.mem_flatMap, comparisonColumns, List.mem_map] at hc
  rcases hc with hc | hc | ⟨name, hname, part, hpart, rfl⟩
  · obtain ⟨f, hf, same⟩ := exists_location ["year"] hc
    exact ⟨f, List.mem_append_left _ (List.mem_append_left _ hf), same⟩
  · have known : ∀ c ∈ [(⟨"year", .integer, false⟩ : Column), ⟨"base_year", .integer, false⟩],
        ∃ f ∈ Family.delta.fields, f.column = c.name := by
      decide
    exact known c hc
  · have compared := List.mem_map_of_mem (f := fun part : Comparison.Part =>
      Field.measure .delta (Field.kindOf name) (part.column name)) hpart
    exact ⟨_, List.mem_append_right _ (List.mem_flatMap.2 ⟨name, measured_subset hname, compared⟩),
      rfl⟩

theorem slope_field_of_mem {level : Level} {type : PropertyType} {grain : TimeGrain} {c : Column}
    (hc : c ∈ columns ⟨.slope, level, type, grain⟩) :
    ∃ f ∈ Family.slope.fields, f.column = c.name := by
  simp only [columns, List.mem_append, List.mem_map] at hc
  rcases hc with hc | ⟨name, hname, rfl⟩ | ⟨name, hname, rfl⟩
  · obtain ⟨f, hf, same⟩ := exists_location ["year", "month"] hc
    exact ⟨f, List.mem_append_left _ (List.mem_append_left _ hf), same⟩
  · have known : ∀ name ∈ "year" :: "month" :: windowColumns,
        ∃ f ∈ Family.slope.fields, f.column = name := by
      decide
    exact known name hname
  · exact ⟨_, List.mem_append_right _ (List.mem_map_of_mem (measured_subset hname)), rfl⟩

/-- Every column of a precomputed relation stands for a field of its family. So a read may show all
of them. -/
theorem exists_field_of_mem {r : Relation} (h : r.family ≠ .transactions) {c : Column}
    (hc : c ∈ r.columns) : ∃ f ∈ r.family.fields, f.column = c.name := by
  obtain ⟨family, level, type, grain⟩ := r
  cases family with
  | rollup => exact rollup_field_of_mem hc
  | delta => exact delta_field_of_mem hc
  | slope => exact slope_field_of_mem hc
  | transactions => exact absurd rfl h

/-- Whatever a precomputed relation holds may be shown. -/
theorem allowed_of_output {r : Relation} (h : r.family ≠ .transactions) {o : Output}
    (ho : o ∈ Output.ofTable r.table) :
    ∀ ref ∈ o.term.references false, ref.Allowed r.table r.family := by
  obtain ⟨c, hc, rfl⟩ := List.mem_map.1 ho
  intro ref href
  obtain rfl : ref = ⟨r.table.name, c.name, false⟩ := List.mem_singleton.1 href
  obtain ⟨f, hf, same⟩ := exists_field_of_mem h hc
  exact {
    source := rfl
    declared := ⟨c, hc, rfl⟩
    listed := ⟨f, hf, same, by simp⟩ }

end Relation

end PropertyMarket
