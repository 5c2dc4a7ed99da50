import PropertyMarket.Proofs.YearlyRows
import PropertyMarket.Slope

/-!
# Reshaping

A flat row of a comparison is reshaped into nested records, and a row of slopes into a window with
named slopes. Each column of the relation has one place in what comes out, and from the place its
name can be told: the parts of a comparison under the field, the counts by rooms under a key of
their own, which is the name of no field. So what is written down has all columns of the relation
with their values, and nothing else that the row carries.

## Main definitions

* `Record.only` — the columns of some names that a row has
* `Relation.columnsOf` — the columns of a relation that a row has
* `DeltaRow.flatten` — the columns of a nested row
* `Relation.Kept` — rows are reshaped without loss

## Main results

* `DeltaRow.flatten_perm` — a reshaped row of a comparison, flattened, has the columns that it had
* `SlopeRow.toRecord_columnsOf` — and so has a row of slopes, as it is written
* `DeltaRow.ofFlat_congr`, `SlopeRow.ofStored_congr` — no other columns are read
* `Relation.reshaping_kept` — reshaping loses nothing

## Implementation notes

That nothing is lost is said by going back: a nested row is flattened by a function that only looks
at the nested row, and what comes out is compared with the row that went in. The order of the
columns changes, because a nested row has its section behind its years; so the comparison is up to a
permutation for comparisons, while for slopes it is an equation.

Only rows that have all columns of the relation come back as they were. That no other columns are
read holds of any row.
-/

namespace PropertyMarket

theorem Value.isNull_eq_false {v : Value} (h : v ≠ .null) : v.isNull = false := by
  cases v with
  | null => exact absurd rfl h
  | _ => rfl

/-! ### Some columns of a row

Two rows that agree in some columns cannot be told apart by anything that reads only these.
Restricting a row to some columns gives a row that agrees with it. -/

/-- The columns of some names that a row has, in the order of the names. -/
def Record.only (row : Record) (names : List String) : Record :=
  names.filterMap fun name => (row.get? name).map fun value => (name, value)

namespace Record

variable {row row' : Record} {names : List String} {name : String}

theorem get?_only (row : Record) (names : List String) (name : String) :
    (row.only names).get? name = if name ∈ names then row.get? name else none := by
  induction names with
  | nil => rfl
  | cons n names ih =>
    rw [only, List.filterMap_cons]
    obtain rfl | differs := eq_or_ne name n
    · rw [if_pos List.mem_cons_self]
      cases found : row.get? name with
      | none =>
        refine ih.trans ?_
        rw [found, ite_self]
      | some value => simp [get?]
    · have unlike : (name == n) = false := by simpa using differs
      simp only [List.mem_cons, differs, false_or]
      cases row.get? n with
      | none => exact ih
      | some value =>
        rw [← ih, get?, get?, Option.map_some, List.lookup_cons, unlike]
        rfl

/-- Of a row that has all the columns, these are the columns. -/
theorem only_eq_map (h : ∀ name ∈ names, row.has name) :
    row.only names = names.map fun name => (name, row.getD name) := by
  rw [only, ← List.filterMap_eq_map]
  refine List.filterMap_congr fun name hname => ?_
  obtain ⟨value, found⟩ := Option.isSome_iff_exists.1 (has_eq_isSome row name ▸ h name hname)
  rw [Function.comp_apply, getD, found]
  rfl

theorem names_only (h : ∀ name ∈ names, row.has name) : (row.only names).names = names := by
  rw [only_eq_map h, Record.names, List.map_map]
  exact List.map_id names

/-- A column that is there can be asked for. -/
theorem require_eq_getD (h : row.has name) : row.require name = .ok (row.getD name) := by
  obtain ⟨value, found⟩ := Option.isSome_iff_exists.1 (has_eq_isSome row name ▸ h)
  rw [require_eq found, getD, found, Option.getD_some]

/-- Rows agree in some columns. -/
def Agree (row row' : Record) (names : List String) : Prop :=
  ∀ name ∈ names, row.get? name = row'.get? name

theorem agree_only (row : Record) (names : List String) : (row.only names).Agree row names :=
  fun name hname => by rw [get?_only, if_pos hname]

namespace Agree

theorem getD_eq (h : row.Agree row' names) (hname : name ∈ names) :
    row.getD name = row'.getD name := by rw [getD, getD, h name hname]

theorem require_eq (h : row.Agree row' names) (hname : name ∈ names) :
    row.require name = row'.require name := by rw [require, require, h name hname]

theorem has_eq (h : row.Agree row' names) (hname : name ∈ names) :
    row.has name = row'.has name := by rw [has_eq_isSome, has_eq_isSome, h name hname]

/-- Rows that agree in the keys of a level agree in the section, if there is one. -/
theorem section_eq {level : Level} (h : row.Agree row' names) (keys : level.keyColumns ⊆ names) :
    (if level = .cadastral then row.getD "section" else .null) =
      if level = .cadastral then row'.getD "section" else .null :=
  ite_congr rfl (fun cadastral => h.getD_eq (keys (by simp [cadastral, Level.keyColumns])))
    fun _ => rfl

end Agree

end Record

/-! ### The columns of a relation

The names of the columns are those of the keys, and those that are made of what is measured. They
are all different, because no measure with an ending is the name of a key or of another measure with
another ending. -/

namespace Relation

variable (r : Relation) (level : Level) (type : PropertyType)

/-- The names of the columns of a relation, in order. -/
def columnNames : List String := r.columns.map Column.name

/-- The columns of a relation that a row has; whatever else is in the row is left out. -/
def columnsOf (row : Record) : Record := row.only r.columnNames

theorem columnNames_delta : (delta level type).columnNames =
    level.keyColumns ++ (["year", "base_year"] ++
      type.measured.flatMap fun name => Comparison.parts.map fun part => part.column name) := by
  have columns : (delta level type).columns = locationColumns level ++
      ([⟨"year", .integer, false⟩, ⟨"base_year", .integer, false⟩] ++
        type.measured.flatMap comparisonColumns) := rfl
  rw [columnNames, columns, List.map_append, List.map_append, List.map_flatMap]
  cases level <;> rfl

theorem columnNames_slope : (slope level type).columnNames =
    level.keyColumns ++ ("year" :: "month" :: windowColumns ++ type.measured.map slopeColumn) := by
  have columns : (slope level type).columns = locationColumns level ++
      (("year" :: "month" :: windowColumns).map (fun name => ⟨name, .integer, true⟩) ++
        type.measured.map fun name => ⟨slopeColumn name, .float, true⟩) := rfl
  rw [columnNames, columns, List.map_append, List.map_append, List.map_map, List.map_map]
  cases level <;> rfl

variable {level type} {name : String}

theorem insee_code_mem (level : Level) : "insee_code" ∈ level.keyColumns := by
  cases level <;> exact List.mem_cons_self

theorem mem_columnNames_delta : name ∈ (delta level type).columnNames ↔
    name ∈ level.keyColumns ++ ["year", "base_year"] ∨
      ∃ field ∈ type.measured, ∃ part : Comparison.Part, part.column field = name := by
  rw [columnNames_delta, ← List.append_assoc, List.mem_append]
  simp

theorem mem_columnNames_slope : name ∈ (slope level type).columnNames ↔
    name ∈ level.keyColumns ++ "year" :: "month" :: windowColumns ∨
      ∃ field ∈ type.measured, slopeColumn field = name := by
  rw [columnNames_slope, ← List.append_assoc, List.mem_append, List.mem_map]

variable (level type)

theorem nodup_columnNames_delta : (delta level type).columnNames.Nodup := by
  rw [columnNames_delta, ← List.append_assoc]
  exact YearlyComparison.nodup_columnNames level type

theorem nodup_columnNames_slope : (slope level type).columnNames.Nodup := by
  cases level <;> cases type <;> decide +kernel

/-- A row has all the columns of a relation, and a section if sections are told apart. It may have
others as well. -/
structure Carries (row : Record) : Prop where
  has : ∀ name ∈ r.columnNames, row.has name
  section_ne_null : r.level = .cadastral → row.getD "section" ≠ .null

end Relation

/-- The column of what is written under a name. -/
def storedName (name : String) : String := if name = "inseeCode" then "insee_code" else name

/-! ### Comparisons

A flat row has four columns for each measure, and a nested row has one record for it, with four
fields. Counts by rooms are nested once more, under the name of the property type. -/

namespace DeltaRow

/-- The names of the keys of a nested row, under which no comparisons are. -/
def keyNames : List String := ["inseeCode", "section", "year", "base_year"]

/-- A nested comparison as columns. -/
def flattenMetric : String × Value → Record
  | (name, .record parts) => parts.map fun part => (name ++ "_" ++ part.1, part.2)
  | field => [field]

/-- A field of a nested row as columns; counts by rooms are nested once more, under a key of their
own. -/
def flattenField (key : String) : String × Value → Record
  | (name, value) =>
    if name ∈ keyNames then [(storedName name, value)]
    else if name = key then
      match value with
      | .record counts => counts.flatMap flattenMetric
      | value => [(name, value)]
    else flattenMetric (name, value)

/-- A nested row as columns: a nested comparison becomes one column for each of its parts. -/
def flatten (key : String) (row : Record) : Record := row.flatMap (flattenField key)

variable {row row' : Record} {level : Level} {type : PropertyType} {names : List String}

theorem flattenMetric_toRecord (row : Record) (name : String) :
    flattenMetric (name, .record (MetricDelta.ofFlat row name).toRecord) =
      (Comparison.parts.map fun part => part.column name).map fun c => (c, row.getD c) := by
  rw [flattenMetric, MetricDelta.toRecord, List.map_map, List.map_map]
  refine List.map_congr_left fun part _ => ?_
  cases part <;> rfl

/-- Nested comparisons are the columns of their parts. -/
theorem flatMap_flattenMetric (row : Record) (names : List String) :
    (nested (comparisons row names)).flatMap flattenMetric =
      (names.flatMap fun name => Comparison.parts.map fun part => part.column name).map
        fun c => (c, row.getD c) := by
  rw [nested, comparisons, List.map_map, List.flatMap_map, List.map_flatMap]
  exact List.flatMap_congr fun name _ => flattenMetric_toRecord row name

/-- Comparisons of fields that are no keys are flattened one by one. -/
theorem flatten_nested {key : String} (row : Record)
    (h : ∀ name ∈ names, name ∉ keyNames ∧ name ≠ key) :
    flatten key (nested (comparisons row names)) =
      (nested (comparisons row names)).flatMap flattenMetric := by
  refine List.flatMap_congr fun field hfield => ?_
  simp only [nested, comparisons, List.mem_map] at hfield
  obtain ⟨_, ⟨name, hname, rfl⟩, rfl⟩ := hfield
  rw [flattenField, if_neg (h name hname).1, if_neg (h name hname).2]

theorem carriesComposition_of_carries (h : (Relation.delta level type).Carries row) :
    carriesComposition type row = true := by
  obtain ⟨name, hname⟩ : ∃ name, name ∈ type.composition := by
    cases type <;> exact ⟨_, List.mem_cons_self⟩
  exact List.any_eq_true.2 ⟨name, hname, h.has _ (Relation.mem_columnNames_delta.2
    (.inr ⟨name, List.mem_append_right _ hname, .current, rfl⟩))⟩

/-- A flat row with all columns, reshaped. -/
theorem ofFlat_eq {r : Relation} (h : (Relation.delta r.level r.type).Carries row) :
    ofFlat r row = .ok {
      inseeCode := row.getD "insee_code"
      year := row.getD "year"
      baseYear := row.getD "base_year"
      cadastral := if r.level = .cadastral then row.getD "section" else .null
      metrics := comparisons row Metric.names
      composition := some (r.type.plural, comparisons row r.type.composition) } := by
  have key {name : String} (hname : name ∈ r.level.keyColumns ++ ["year", "base_year"]) :
      row.require name = .ok (row.getD name) :=
    Record.require_eq_getD (h.has name (Relation.mem_columnNames_delta.2 (.inl hname)))
  rw [ofFlat, key (List.mem_append_left _ (Relation.insee_code_mem _)), key (by simp),
    key (by simp), carriesComposition_of_carries h]
  rfl

/-- What a reshaped row is, flattened again. -/
theorem flatten_toRecord (type : PropertyType) (row : Record) (code year base cadastral : Value) :
    flatten type.plural (toRecord ⟨code, year, base, cadastral, comparisons row Metric.names,
        some (type.plural, comparisons row type.composition)⟩) =
      [("insee_code", code), ("year", year), ("base_year", base)] ++
        (if cadastral.isNull then [] else [("section", cadastral)]) ++
        (type.measured.flatMap fun name => Comparison.parts.map fun part => part.column name).map
          fun c => (c, row.getD c) := by
  have apart : ∀ name ∈ Metric.names, name ∉ keyNames ∧ name ≠ type.plural := by
    cases type <;> decide
  have metrics := (flatten_nested row apart).trans (flatMap_flattenMetric row _)
  have counts : flatten type.plural
      [(type.plural, .record (nested (comparisons row type.composition)))] =
        (nested (comparisons row type.composition)).flatMap flattenMetric := by
    rw [flatten, List.flatMap_singleton]
    cases type <;> rfl
  rw [flatMap_flattenMetric] at counts
  have keys : flatten type.plural ([("inseeCode", code), ("year", year), ("base_year", base)] ++
      if cadastral.isNull then [] else [("section", cadastral)]) =
        [("insee_code", code), ("year", year), ("base_year", base)] ++
          if cadastral.isNull then [] else [("section", cadastral)] := by
    cases cadastral.isNull <;> rfl
  rw [flatten] at metrics counts keys
  rw [toRecord, flatten, List.flatMap_append, List.flatMap_append, keys, metrics, counts,
    List.append_assoc, ← List.map_append, ← List.flatMap_append, PropertyType.measured]

/-- **Flattened again, a reshaped row has the columns that it had.** They come in another order,
each of them once and with its value. -/
theorem flatten_perm {r : Relation} (h : (Relation.delta r.level r.type).Carries row) :
    ∃ d, ofFlat r row = .ok d ∧
      (flatten r.type.plural d.toRecord).Perm ((Relation.delta r.level r.type).columnsOf row) := by
  refine ⟨_, ofFlat_eq h, ?_⟩
  rw [flatten_toRecord, Relation.columnsOf, Record.only_eq_map h.has, Relation.columnNames_delta,
    ← List.append_assoc r.level.keyColumns, List.map_append]
  refine List.Perm.append_right _ ?_
  have known := h.section_ne_null
  cases level : r.level with
  | commune => exact .refl _
  | cadastral =>
    rw [if_pos rfl, Value.isNull_eq_false (known level)]
    -- The section comes last among the keys, and second among the columns.
    have order : ["insee_code", "year", "base_year", "section"].Perm
        ["insee_code", "section", "year", "base_year"] := by decide
    exact order.map fun c => (c, row.getD c)

/-- Nothing but the columns of the relation is read, so rows that agree in these are reshaped
alike. -/
theorem ofFlat_congr {r : Relation}
    (h : row.Agree row' (Relation.delta r.level r.type).columnNames) :
    ofFlat r row = ofFlat r row' := by
  have key {name : String} (hname : name ∈ r.level.keyColumns ++ ["year", "base_year"]) :
      name ∈ (Relation.delta r.level r.type).columnNames :=
    Relation.mem_columnNames_delta.2 (.inl hname)
  have part {name : String} (hname : name ∈ r.type.measured) (part : Comparison.Part) :
      part.column name ∈ (Relation.delta r.level r.type).columnNames :=
    Relation.mem_columnNames_delta.2 (.inr ⟨name, hname, part, rfl⟩)
  have same {names : List String} (within : names ⊆ r.type.measured) :
      comparisons row names = comparisons row' names := by
    refine List.map_congr_left fun name hname => ?_
    simp only [MetricDelta.ofFlat, h.getD_eq (part (within hname) _)]
  have located := h.section_eq fun _ hname => key (List.mem_append_left _ hname)
  have metrics := same (List.subset_append_left Metric.names r.type.composition)
  have counts := same (List.subset_append_right Metric.names r.type.composition)
  have carries : carriesComposition r.type row = carriesComposition r.type row' := by
    rw [Bool.eq_iff_iff, carriesComposition, carriesComposition, List.any_eq_true, List.any_eq_true]
    refine exists_congr fun name => and_congr_right fun hname => ?_
    rw [h.has_eq (part (List.mem_append_right _ hname) .current)]
  rw [ofFlat, ofFlat, h.require_eq (key (List.mem_append_left _ (Relation.insee_code_mem _))),
    h.require_eq (key (by simp : "year" ∈ _)), h.require_eq (key (by simp : "base_year" ∈ _)),
    located, metrics, counts, carries]

end DeltaRow

/-! ### Slopes

A row of slopes is reshaped by renaming. Its window is kept as it is, and each slope is named after
what it is the slope of. -/

namespace SlopeRow

variable {row row' : Record} {r : Relation} {type : PropertyType}

/-- A stored row with all columns. -/
theorem ofStored_eq (h : (Relation.slope r.level r.type).Carries row) :
    ofStored r row = .ok {
      inseeCode := row.getD "insee_code"
      cadastral := if r.level = .cadastral then row.getD "section" else .null
      year := row.getD "year"
      month := row.getD "month"
      windowMonths := row.getD "window_months"
      windowStartYear := row.getD "window_start_year"
      windowStartMonth := row.getD "window_start_month"
      slopes := r.type.measured.map fun name => (name, row.getD (slopeColumn name)) } := by
  have key {name : String}
      (hname : name ∈ r.level.keyColumns ++ "year" :: "month" :: windowColumns) :
      row.require name = .ok (row.getD name) :=
    Record.require_eq_getD (h.has name (Relation.mem_columnNames_slope.2 (.inl hname)))
  have slopes : (r.type.measured.filterMap fun name =>
      (row.get? (slopeColumn name)).map fun slope => (name, slope)) =
        r.type.measured.map fun name => (name, row.getD (slopeColumn name)) := by
    rw [← List.filterMap_eq_map]
    refine List.filterMap_congr fun name hname => ?_
    have there := h.has _ (Relation.mem_columnNames_slope.2 (.inr ⟨name, hname, rfl⟩))
    obtain ⟨value, found⟩ := Option.isSome_iff_exists.1 (Record.has_eq_isSome row _ ▸ there)
    rw [Function.comp_apply, Record.getD_eq found, found, Option.map_some]
  rw [ofStored, key (List.mem_append_left _ (Relation.insee_code_mem _)), key (by simp),
    key (by simp), key (by simp [windowColumns]), key (by simp [windowColumns]),
    key (by simp [windowColumns]), slopes]
  rfl

/-- Slopes are written behind the keys and the window, as none of them has a name of these. -/
theorem toRecord_eq_append {σ : Type} (write : σ → Value) {s : SlopeRow σ}
    (measured : s.slopes.map Prod.fst = type.measured) :
    s.toRecord write = ([("inseeCode", s.inseeCode)] ++
      (if s.cadastral.isNull then [] else [("section", s.cadastral)]) ++
      [("year", s.year), ("month", s.month), ("window_months", s.windowMonths),
        ("window_start_year", s.windowStartYear), ("window_start_month", s.windowStartMonth)]) ++
      s.slopes.map fun field => (slopeColumn field.1, write field.2) := by
  refine Record.putAll_eq_append ?_
  have all : (["inseeCode", "section", "year", "month", "window_months", "window_start_year",
      "window_start_month"] ++ type.measured.map slopeColumn).Nodup := by
    cases type <;> decide +kernel
  have slopes : s.slopes.map (fun field => slopeColumn field.1) =
      type.measured.map slopeColumn := by
    rw [← measured, List.map_map]
    rfl
  rw [Record.names, List.map_append, List.map_map]
  refine (slopes ▸ all).sublist (List.Sublist.append_right ?_ _)
  cases s.cadastral.isNull with
  | false => exact .refl _
  | true => exact .cons_cons _ (.cons _ (.refl _))

/-- **Written down, a stored row has the columns that it had**, under the names of the record's
fields. -/
theorem toRecord_columnsOf (h : (Relation.slope r.level r.type).Carries row) :
    ∃ s, ofStored r row = .ok s ∧
      (s.toRecord id).map (fun field => (storedName field.1, field.2)) =
        (Relation.slope r.level r.type).columnsOf row := by
  refine ⟨_, ofStored_eq h, ?_⟩
  have columns : ∀ name ∈ r.type.measured,
      storedName (slopeColumn name) = slopeColumn name := by
    cases r.type <;> decide +kernel
  have slopes : (r.type.measured.map fun name => (name, row.getD (slopeColumn name))).map
      (fun field => (storedName (slopeColumn field.1), field.2)) =
      (r.type.measured.map slopeColumn).map fun c => (c, row.getD c) := by
    rw [List.map_map, List.map_map]
    exact List.map_congr_left fun name hname => Prod.ext (columns name hname) rfl
  have split : (Relation.slope r.level r.type).columnsOf row =
      (r.level.keyColumns ++ "year" :: "month" :: windowColumns).map (fun c => (c, row.getD c)) ++
        (r.type.measured.map slopeColumn).map fun c => (c, row.getD c) := by
    rw [Relation.columnsOf, Record.only_eq_map h.has, Relation.columnNames_slope,
      ← List.append_assoc, List.map_append]
  have known := h.section_ne_null
  rw [toRecord_eq_append id (by rw [List.map_map]; exact List.map_id r.type.measured),
    List.map_append, split]
  refine congrArg₂ _ ?_ ?_
  · cases level : r.level with
    | commune => rfl
    | cadastral =>
      rw [if_pos rfl, Value.isNull_eq_false (known level)]
      rfl
  · rw [← slopes, List.map_map]
    rfl

/-- Nothing but the columns of the relation is read, so rows that agree in these are taken over
alike. -/
theorem ofStored_congr (h : row.Agree row' (Relation.slope r.level r.type).columnNames) :
    ofStored r row = ofStored r row' := by
  have key {name : String}
      (hname : name ∈ r.level.keyColumns ++ "year" :: "month" :: windowColumns) :
      name ∈ (Relation.slope r.level r.type).columnNames :=
    Relation.mem_columnNames_slope.2 (.inl hname)
  have located := h.section_eq fun _ hname => key (List.mem_append_left _ hname)
  have slopes : (r.type.measured.filterMap fun name =>
      (row.get? (slopeColumn name)).map fun slope => (name, slope)) =
        r.type.measured.filterMap fun name =>
          (row'.get? (slopeColumn name)).map fun slope => (name, slope) :=
    List.filterMap_congr fun name hname => by
      rw [h _ (Relation.mem_columnNames_slope.2 (.inr ⟨name, hname, rfl⟩))]
  rw [ofStored, ofStored,
    h.require_eq (key (List.mem_append_left _ (Relation.insee_code_mem _))),
    h.require_eq (key (by simp : "year" ∈ _)), h.require_eq (key (by simp : "month" ∈ _)),
    h.require_eq (key (by simp [windowColumns] : "window_months" ∈ _)),
    h.require_eq (key (by simp [windowColumns] : "window_start_year" ∈ _)),
    h.require_eq (key (by simp [windowColumns] : "window_start_month" ∈ _)), located, slopes]

end SlopeRow

/-! ### Reshaping in general

Both kinds of rows have the same three properties, so these are stated once, of any way to reshape
the rows of a relation and to go back. -/

/-- Rows of a relation are reshaped without loss: of a reshaped row, `back` are the columns. -/
structure Relation.Kept {α : Type} (r : Relation) (reshape : Record → Except Fault α)
    (back : α → Record) : Prop where
  /-- What a row has of the relation is there again, and nothing else is. -/
  columns : ∀ row, r.Carries row →
    ∃ reshaped, reshape row = .ok reshaped ∧ (back reshaped).Perm (r.columnsOf row)
  /-- Those are all the columns of the relation, each of them once. -/
  names : ∀ row, r.Carries row → (r.columnsOf row).names = r.columnNames ∧ r.columnNames.Nodup
  /-- Whatever else a row carries, and whatever it lacks, only these columns are read. -/
  foreign : ∀ row, reshape row = reshape (r.columnsOf row)

/-- **Reshaping loses nothing**, neither of the rows of a comparison nor of those of slopes. The
nested row, laid flat again, has the columns of the relation with the values they had, each once;
and columns that the relation does not have make no difference to it. -/
theorem Relation.reshaping_kept (level : Level) (type : PropertyType) :
    (delta level type).Kept (DeltaRow.ofFlat (delta level type))
      (fun d => DeltaRow.flatten type.plural d.toRecord) ∧
    (slope level type).Kept (SlopeRow.ofStored (slope level type))
      (fun s => (s.toRecord id).map fun field => (storedName field.1, field.2)) := by
  constructor
  · constructor
    case columns => exact fun row h => DeltaRow.flatten_perm h
    case names => exact fun row h => ⟨Record.names_only h.has, nodup_columnNames_delta level type⟩
    case foreign => exact fun row => (DeltaRow.ofFlat_congr (Record.agree_only row _)).symm
  · constructor
    case columns =>
      intro row h
      obtain ⟨s, read, same⟩ := SlopeRow.toRecord_columnsOf (r := slope level type) h
      exact ⟨s, read, .of_eq same⟩
    case names => exact fun row h => ⟨Record.names_only h.has, nodup_columnNames_slope level type⟩
    case foreign => exact fun row => (SlopeRow.ofStored_congr (Record.agree_only row _)).symm

/-- A row of each relation whose columns have their names for values, with a number of another
relation. -/
theorem Relation.reshaping_kept_named :
    let row (r : Relation) : Record :=
      (r.columnNames.map fun c => (c, .text c)) ++ [("house_1_room_base", .int 7)]
    (∃ d, DeltaRow.ofFlat (delta .cadastral .apartment)
        (row (delta .cadastral .apartment)) = .ok d ∧
      (DeltaRow.flatten "apartments" d.toRecord).Perm
        ((delta .cadastral .apartment).columnNames.map fun c => (c, .text c))) ∧
    ∃ s, SlopeRow.ofStored (slope .cadastral .house) (row (slope .cadastral .house)) = .ok s ∧
      ((s.toRecord id).map fun field => (storedName field.1, field.2)).Perm
        ((slope .cadastral .house).columnNames.map fun c => (c, .text c)) := by
  intro row
  have found {r : Relation} {c : String} (hc : c ∈ r.columnNames) :
      (row r).get? c = some (.text c) := by
    rw [Record.get?, List.lookup_append, List.lookup_graph _ hc, Option.some_or]
  have has {r : Relation} (c : String) (hc : c ∈ r.columnNames) : (row r).has c := by
    rw [Record.has_eq_isSome, found hc, Option.isSome_some]
  have columns (r : Relation) : r.columnsOf (row r) = r.columnNames.map fun c => (c, .text c) := by
    rw [columnsOf, Record.only_eq_map has]
    exact List.map_congr_left fun c hc => by rw [Record.getD_eq (found hc)]
  have carries {r : Relation} (hr : "section" ∈ r.columnNames) : r.Carries (row r) :=
    ⟨has, fun _ => by rw [Record.getD_eq (found hr)]; exact Value.noConfusion⟩
  rw [← columns, ← columns]
  exact ⟨(reshaping_kept .cadastral .apartment).1.columns _ (carries (by decide +kernel)),
    (reshaping_kept .cadastral .house).2.columns _ (carries (by decide +kernel))⟩

end PropertyMarket
