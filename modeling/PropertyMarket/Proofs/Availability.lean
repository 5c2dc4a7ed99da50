import PropertyMarket.Field
import PropertyMarket.Proofs.Outcome

/-!
# Which fields a relation has

A name becomes a column in two steps: the family of a relation has to know it as a field, and the
relation has to hold the column of that field. The family of the rollups knows all dimensions and
all that is measured, but a rollup only holds the keys of its own level and grain, and the counts
of its own property type. This module says which names get through both steps.

## Main results

* `Field.onTable_eq_ok_iff` — a name has a column exactly when both steps succeed
* `Field.onTable_measured` — a rollup holds everything that its property type measures
* `Field.onTable_dimension_iff` — a rollup of years or months holds a dimension exactly when its
  level and its grain do; `Field.onTable_dimension_of_lacks` — how it is refused otherwise

## Implementation notes

The catalog of names is finite, and the facts about single names are decided by going through it.
What is proved by an argument is what holds of every relation: the columns of a rollup are computed
from its level, its grain and its property type, and a name is looked up in lists that are made of
names, where `find?_map_name` finds it without going through the list.
-/

namespace PropertyMarket

/-! ### Tables that are made of names

The columns of a rollup and the fields of a family are both lists of things that are made of a name
and can tell it. Looking a name up in such a list is a question about the list of names. -/

/-- In a list of things made of names, a name finds the thing that is made of it. -/
theorem find?_map_name {α : Type} {make : String → α} {name : α → String}
    (named : ∀ s, name (make s) = s) {s : String} {names : List String} (h : s ∈ names) :
    (names.map make).find? (fun a => name a == s) = some (make s) := by
  induction names with
  | nil => simp at h
  | cons n names ih =>
    rw [List.map_cons, List.find?_cons, named]
    by_cases same : n = s
    · simp [same]
    · rw [beq_eq_false_iff_ne.2 same]
      exact ih ((List.mem_cons.1 h).resolve_left (Ne.symm same))

/-- A list finds nothing under a name that none of its items has. -/
theorem find?_eq_none_of_name {α : Type} {name : α → String} {s : String} {items : List α}
    (h : s ∉ items.map name) : items.find? (fun a => name a == s) = none := by
  rw [List.find?_eq_none]
  intro a ha same
  exact h (List.mem_map.2 ⟨a, ha, by simpa using same⟩)

/-! ### Both steps

The two steps fail differently. A name that its family does not know is an unknown field; a known
field whose column the relation lacks is refused as well, but the error then names the relation. -/

namespace Field

theorem resolve_eq_ok_iff {family : Family} {name : String} {f : Field} :
    resolve family name = .ok f ↔ find? family name = some f := by
  unfold resolve
  cases find? family name <;> simp

theorem columnOn_eq_ok_iff {f : Field} {table : Table} {c : Column} :
    f.columnOn table = .ok c ↔ table.column? f.column = some c := by
  unfold columnOn
  cases table.column? f.column <;> simp

theorem onTable_eq_ok_iff {table : Table} {family : Family} {name : String} {c : Column} :
    onTable table family name = .ok c ↔
      ∃ f, find? family name = some f ∧ table.column? f.column = some c := by
  simp only [onTable, Outcome.bind_eq_ok_iff, resolve_eq_ok_iff, columnOn_eq_ok_iff]

/-- The fields of a family know their family. -/
theorem family_of_mem_fields {family : Family} {f : Field} (h : f ∈ family.fields) :
    f.family = family := by
  cases family <;>
    simp only [Family.fields, dimensions, measure, ofDimension, List.mem_append, List.mem_map,
      List.mem_flatMap, List.mem_singleton] at h <;> grind

/-! ### What is measured

Metrics and counts by composition are measured, and every rollup holds those of its own property
type. None of their names is that of a key, so a measured column is found behind the columns of the
location and the period without being mistaken for one of them. -/

/-- What is measured goes by other names than the keys of a row. -/
theorem measured_not_dimension :
    ∀ name ∈ measured, name ∉ Dimension.names ∧ name ∉ Dimension.catalog.map Dimension.column := by
  decide +kernel

theorem name_of_mem_dimensions {family : Family} {names : List String} {f : Field}
    (h : f ∈ dimensions family names) : f.name ∈ Dimension.names := by
  obtain ⟨d, hd, rfl⟩ := List.mem_map.1 h
  exact List.mem_map.2 ⟨d, (List.mem_filter.1 hd).1, rfl⟩

theorem find?_measured {name : String} (h : name ∈ measured) :
    find? .rollup name = some (measure .rollup (kindOf name) name) := by
  have stranger : name ∉ (dimensions .rollup Dimension.names).map Field.name := by
    intro hmem
    obtain ⟨f, hf, rfl⟩ := List.mem_map.1 hmem
    exact (measured_not_dimension f.name h).1 (name_of_mem_dimensions hf)
  rw [find?, Family.fields, List.find?_append, find?_eq_none_of_name stranger, Option.none_or]
  exact find?_map_name (fun _ => rfl) h

end Field

namespace Relation

/-- The columns of a rollup that are not measured are those of dimensions. -/
theorem keyColumn_of_mem {level : Level} {grain : TimeGrain} {c : Column}
    (h : c ∈ locationColumns level ++ periodColumns grain) :
    c.name ∈ Dimension.catalog.map Dimension.column := by
  revert c
  cases level <;> cases grain <;> decide

theorem measured_subset {type : PropertyType} {name : String} (h : name ∈ type.measured) :
    name ∈ Field.measured := by
  simp only [PropertyType.measured, Field.measured, compositionNames, List.mem_append] at h ⊢
  cases type
  · exact h.imp_right .inl
  · exact h.imp_right .inr

theorem column?_measured {r : Relation} (hr : r.family = .rollup) {name : String}
    (h : name ∈ r.type.measured) :
    r.table.column? name = some ⟨name, metricType name, false⟩ := by
  have stranger : name ∉ (locationColumns r.level ++ periodColumns r.grain).map Column.name := by
    intro hmem
    obtain ⟨c, hc, rfl⟩ := List.mem_map.1 hmem
    exact (Field.measured_not_dimension c.name (measured_subset h)).2 (keyColumn_of_mem hc)
  have columns_eq : r.columns = (locationColumns r.level ++ periodColumns r.grain) ++
      r.type.measured.map fun n => ⟨n, metricType n, false⟩ := by
    simp only [columns, hr, List.append_assoc]
  rw [Table.column?, table, columns_eq, List.find?_append, find?_eq_none_of_name stranger,
    Option.none_or]
  exact find?_map_name (fun _ => rfl) h

end Relation

namespace Field

/-- A rollup holds everything that its property type measures, whatever its level and its grain are.
The column has the type of the metric and is not declared nullable. -/
theorem onTable_measured {r : Relation} (hr : r.family = .rollup) {name : String}
    (h : name ∈ r.type.measured) :
    onTable r.table .rollup name = .ok ⟨name, Relation.metricType name, false⟩ :=
  onTable_eq_ok_iff.2
    ⟨_, find?_measured (Relation.measured_subset h), Relation.column?_measured hr h⟩

/-! ### Dimensions

Dimensions are what rows are told apart by. All of them are fields of the rollups, so a request that
names one is not refused for its name; but the rollup that it is read from may not tell its rows
apart by it, and then it lacks the column. -/

/-- Does a rollup of years or months hold the dimension? Sections are only told apart at their own
level, months only by monthly rows, and weeks by neither. -/
def IsKeyOf (level : Level) (grain : TimeGrain) (name : String) : Prop :=
  name = "inseeCode" ∨ name = "year" ∨ (name = "section" ∧ level = .cadastral) ∨
    (name = "month" ∧ grain = .month)

instance (level : Level) (grain : TimeGrain) (name : String) :
    Decidable (IsKeyOf level grain name) :=
  inferInstanceAs (Decidable (_ ∨ _))

theorem dimension_known : ∀ name ∈ Dimension.names, (find? .rollup name).isSome = true := by
  decide

/-- A rollup of years or months holds a dimension exactly when its level and its grain do. -/
theorem onTable_dimension_iff {r : Relation} (hr : r.family = .rollup) (hg : r.grain ≠ .week)
    {name : String} (h : name ∈ Dimension.names) :
    (∃ c, onTable r.table .rollup name = .ok c) ↔ IsKeyOf r.level r.grain name := by
  obtain ⟨family, level, type, grain⟩ := r
  obtain rfl : family = .rollup := hr
  -- The closed statement about all dimensions, which each of the eight rollups decides.
  have table : ∀ name ∈ Dimension.names,
      (onTable (Relation.table ⟨.rollup, level, type, grain⟩) .rollup name).isOk =
        decide (IsKeyOf level grain name) := by
    cases grain with
    | week => exact absurd rfl hg
    | _ => cases level <;> cases type <;> decide +kernel
  rw [← decide_eq_true_iff (p := IsKeyOf level grain name), ← table name h]
  cases onTable (Relation.table ⟨.rollup, level, type, grain⟩) .rollup name <;>
    simp [Except.isOk, Except.toBool]

/-- A dimension that a rollup lacks is refused as a field that the rollup does not hold. The error
names the dimension and the rollup, and is reported as an unknown field. -/
theorem onTable_dimension_of_lacks {r : Relation} (hr : r.family = .rollup) (hg : r.grain ≠ .week)
    {name : String} (h : name ∈ Dimension.names) (lacks : ¬IsKeyOf r.level r.grain name) :
    onTable r.table .rollup name = .error (.query (.missingColumn name .rollup r.name)) := by
  obtain ⟨f, hf⟩ : ∃ f, find? .rollup name = some f :=
    Option.isSome_iff_exists.1 (dimension_known name h)
  have absent : r.table.column? f.column = none := by
    rw [Option.eq_none_iff_forall_ne_some]
    intro c hc
    exact lacks ((onTable_dimension_iff hr hg h).1 ⟨c, onTable_eq_ok_iff.2 ⟨f, hf, hc⟩⟩)
  rw [onTable, resolve, hf, Outcome.ok_bind, columnOn, absent, find?_name hf,
    family_of_mem_fields (mem_fields_of_find? hf)]
  rfl

end Field

end PropertyMarket
