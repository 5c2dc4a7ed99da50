import PropertyMarket.Proofs.SlopeRows

/-!
# Slopes by the store

The store first selects the latest year of each location, joins every row of a monthly rollup with
that of its location, keeps the rows of the latest year, and groups them by location. As a row has
one location, the join adds nothing but the latest year to it; so what is kept of a location is its
window, every location keeps some row, and the groups are the windows. What is computed of a group
is what is said of the window, but for the slopes, which are rounded away from zero.

So the store and rows at hand agree exactly if no slope is halfway between two numbers of six places
of which the one nearer to zero is even.

## Main definitions

* `SlopeWindow.windowEnv` — what the two sources hold for a row
* `SlopeWindow.isLatest` — the rows that are kept

## Main results

* `SlopeWindow.envs_join` — the join adds to each row the latest year of its location
* `SlopeWindow.filter_isLatest`, `SlopeWindow.locations_isLatest` — what is kept are the windows of
  all locations
* `SlopeWindow.exists_table` — the rows of the statement are those of the locations
* `SlopeWindow.slopes_denote` — the rows of the statement and those at hand

## Implementation notes

Arithmetic is exact on both sides until a slope is rounded.

That the join adds nothing but the latest year is the main step: among all pairs of a row and a
location, the conditions hold of each row and its own location only. After it, keeping the latest
year is a filter on rows, grouping is by location, and every term of the statement is an aggregate
of a list of integers or a slope of a list of points.
-/

namespace PropertyMarket

namespace SlopeWindow

variable {d : Dialect} {r : Relation} {rows : List Record} {tables : Tables}

/-! ### Groups of rows

What terms are of a group of rows whose keys are texts and integers, whatever source the columns are
reached by. These lemmas are used for the inner selection and for the outer one. -/

section Groups

variable {env : Record → Env} {source : String} {row : Record} {group : List Record}

theorem column_text_eq (h : r.MonthlyContent rows) (hrow : row ∈ rows)
    (hsource : ∀ row, env row source = row.stored) {k : String} (hk : k ∈ r.level.keyColumns)
    (others : List Env) :
    (Term.column source k).cell d (env row :: others) = .ok (.text (row.text k)) := by
  rw [Term.cell_column, hsource, h.keyed.stored_text hrow hk]

theorem column_int_eq (h : r.MonthlyContent rows) (hrow : row ∈ rows)
    (hsource : ∀ row, env row source = row.stored) {k : String} (hk : k ∈ ["year", "month"]) :
    (Term.column source k).cell d [env row] = .ok (.int (row.int k)) := by
  rw [Term.cell_column, hsource, h.keyed.stored_int hrow hk]

/-- The texts by which rows are grouped. -/
theorem keys_eq (h : r.MonthlyContent rows) (hrow : row ∈ rows)
    (hsource : ∀ row, env row source = row.stored) :
    ((r.level.keyColumns.map fun k => Term.column source k).mapM fun term =>
      term.cell d [env row]) = .ok ((row.texts r.level.keyColumns).map .text) := by
  rw [List.mapM_map, Record.texts, List.map_map]
  exact Outcome.mapM_eq_ok_map fun k hk => column_text_eq (d := d) h hrow hsource hk []

theorem text_injective : Function.Injective (List.map Cell.text) :=
  List.map_injective_iff.2 fun _ _ => Cell.text.inj

/-- The location of a group of rows is that of each of them. -/
theorem row_location (h : r.MonthlyContent rows) (hsource : ∀ row, env row source = row.stored)
    {label : String → Option String} (hlabel : ∀ k, Output.name ⟨.column source k, label k⟩ = k)
    {location : List String} (nonempty : group ≠ [])
    (hgroup : ∀ row ∈ group, row ∈ rows ∧ row.texts r.level.keyColumns = location) :
    Output.row d (r.level.keyColumns.map fun k => ⟨.column source k, label k⟩) (group.map env) =
      .ok (r.level.keyColumns.zip (location.map .text)) := by
  cases group with
  | nil => exact absurd rfl nonempty
  | cons row others =>
    obtain ⟨mem, rfl⟩ := hgroup row List.mem_cons_self
    have cells : r.level.keyColumns.zip ((row.texts r.level.keyColumns).map Cell.text) =
        r.level.keyColumns.map fun k => (k, .text (row.text k)) := by
      rw [Record.texts, List.map_map, ← List.map_prod_left_eq_zip]
      rfl
    rw [cells, Output.row, List.mapM_map]
    refine Outcome.mapM_eq_ok_map fun k hk => ?_
    rw [Function.comp_apply, hlabel, List.map_cons, column_text_eq h mem hsource hk]
    rfl

section Integers

variable {term : Term} {int : Record → ℤ}

/-- The integers that a term is of the rows of a group. -/
theorem cells_int (h : ∀ row ∈ group, term.cell d [env row] = .ok (.int (int row))) :
    ((group.map env).mapM fun env => term.cell d [env]) = .ok ((group.map int).map .int) := by
  rw [List.mapM_map, List.map_map]
  exact Outcome.mapM_eq_ok_map h

theorem cell_greatest (nonempty : group ≠ [])
    (h : ∀ row ∈ group, term.cell d [env row] = .ok (.int (int row))) :
    (Term.aggregate .max term).cell d (group.map env) =
      .ok (.int (outermost true (group.map int))) := by
  rw [Term.cell_aggregate .max (cells_int h), Dialect.aggregate_greatest]
  exact mt List.map_eq_nil_iff.1 nonempty

theorem cell_least (nonempty : group ≠ [])
    (h : ∀ row ∈ group, term.cell d [env row] = .ok (.int (int row))) :
    (Term.aggregate .min term).cell d (group.map env) =
      .ok (.int (outermost false (group.map int))) := by
  rw [Term.cell_aggregate .min (cells_int h), Dialect.aggregate_least]
  exact mt List.map_eq_nil_iff.1 nonempty

end Integers

end Groups

/-! ### The latest year of each location

The inner selection groups all rows by location and takes the greatest year of each. It has one row
for each location. -/

/-- What the columns of a rollup hold in a row. -/
def rollupEnv (r : Relation) (row : Record) : Env := Env.empty.extend r.name row.stored

/-- A location and its latest year. -/
def latestCells (r : Relation) (rows : List Record) (location : List String) :
    List (String × Cell) :=
  r.level.keyColumns.zip (location.map .text) ++
    [("latest_year", .int (latest (rowsOf r.level.keyColumns rows location)))]

theorem latestYears_groups (r : Relation) :
    r.latestYears.groups = r.level.keyColumns.map fun k => Term.column r.name k := by
  show (r.level.keyColumns.map _).map _ = _
  rw [List.map_map]
  rfl

theorem latestYears_outputs (r : Relation) :
    r.latestYears.outputs = (r.level.keyColumns.map fun k => ⟨.column r.name k, some k⟩) ++
      [⟨.aggregate .max (.column r.name "year"), some "latest_year"⟩] := by
  show (r.level.keyColumns.map _).map _ ++ _ = _
  rw [List.map_map]
  rfl

theorem rollupEnv_name (r : Relation) (row : Record) : rollupEnv r row r.name = row.stored :=
  Env.extend_self _ _ _

/-- The latest year of a location. -/
theorem row_latestYears (h : r.MonthlyContent rows) {location : List String}
    (hlocation : location ∈ locations r.level.keyColumns rows) :
    Output.row d r.latestYears.outputs
      ((rowsOf r.level.keyColumns rows location).map (rollupEnv r)) =
      .ok (latestCells r rows location) := by
  have nonempty := rowsOf_ne_nil hlocation
  have within : ∀ row ∈ rowsOf r.level.keyColumns rows location,
      row ∈ rows ∧ row.texts r.level.keyColumns = location := fun row hrow =>
    ⟨List.mem_of_mem_filter hrow, of_decide_eq_true (List.mem_filter.1 hrow).2⟩
  have located : Output.row d (r.level.keyColumns.map fun k => ⟨.column r.name k, some k⟩)
      ((rowsOf r.level.keyColumns rows location).map (rollupEnv r)) = .ok _ :=
    row_location h (rollupEnv_name r) (fun _ => rfl) nonempty within
  have year := cell_greatest (d := d) nonempty fun row hrow =>
    column_int_eq h (within row hrow).1 (rollupEnv_name r) List.mem_cons_self
  have dated : Output.row d [⟨.aggregate .max (.column r.name "year"), some "latest_year"⟩]
      ((rowsOf r.level.keyColumns rows location).map (rollupEnv r)) =
      .ok [("latest_year", .int (latest (rowsOf r.level.keyColumns rows location)))] := by
    rw [Output.row, List.mapM_cons, year]
    rfl
  rw [latestYears_outputs]
  exact Outcome.mapM_append_eq_ok located dated

/-- The selection of the latest years has one row for each location. -/
theorem rows_latestYears (h : r.MonthlyContent rows)
    (stored : tables r.name = rows.map Record.stored) :
    (Joined.derived r.latestYears Relation.latestSource).rows d tables =
      .ok ((locations r.level.keyColumns rows).map fun location =>
        Joined.storedRow (latestCells r rows location)) := by
  have envs : r.latestYears.source.envs tables = rows.map (rollupEnv r) := by
    show (tables r.name).map _ = _
    rw [stored, List.map_map]
    rfl
  have grouped : r.latestYears.groups ≠ [] := by
    rw [latestYears_groups]
    cases r.level <;> exact List.cons_ne_nil _ _
  have selected : r.latestYears.rowsOf d (rows.map (rollupEnv r)) =
      .ok (((rows.filter fun _ => true).map (Record.texts r.level.keyColumns)).dedup.map
        (latestCells r rows)) := by
    refine Query.rowsOf_grouped _ grouped text_injective (fun _ _ => rfl) ?_ ?_
    · intro row hrow
      rw [latestYears_groups]
      exact keys_eq h hrow (rollupEnv_name r)
    · intro location hlocation
      rw [List.filter_true] at hlocation ⊢
      exact row_latestYears h hlocation
  rw [Joined.rows, envs, selected, List.filter_true]
  exact congrArg Except.ok List.map_map

/-! ### Each row with the latest year of its location

The join pairs every row with every location, and its conditions pick one location for each row. So
the rows of the join are the rows of the rollup, each with one number more. -/

theorem name_ne_latestSource (rollup : r.family = .rollup) (monthly : r.grain = .month) :
    r.name ≠ Relation.latestSource := by
  obtain ⟨family, level, type, grain⟩ := r
  obtain rfl : family = .rollup := rollup
  obtain rfl : grain = .month := monthly
  cases level <;> cases type <;> decide

/-- What the columns of the two sources hold for a row and a location. -/
def joinEnv (r : Relation) (rows : List Record) (row : Record) (location : List String) : Env :=
  (rollupEnv r row).extend Relation.latestSource (Joined.storedRow (latestCells r rows location))

theorem joinEnv_name (rollup : r.family = .rollup) (monthly : r.grain = .month) (row : Record)
    (location : List String) : joinEnv r rows row location r.name = row.stored :=
  (Env.extend_of_ne _ _ (name_ne_latestSource rollup monthly)).trans (Env.extend_self _ _ _)

theorem lookup_location {level : Level} {k : String} (hk : k ∈ level.keyColumns)
    (cell : String → Cell) (others : List (String × Cell)) :
    (level.keyColumns.zip (level.keyColumns.map cell) ++ others).lookup k = some (cell k) := by
  cases level with
  | commune =>
    obtain rfl := List.mem_singleton.1 hk
    rfl
  | cadastral =>
    obtain rfl | hk := List.mem_cons.1 hk
    · rfl
    · obtain rfl := List.mem_singleton.1 hk
      rfl

theorem joinEnv_location (row other : Record) {k : String} (hk : k ∈ r.level.keyColumns) :
    joinEnv r rows row (other.texts r.level.keyColumns) Relation.latestSource k =
      .ok (.text (other.text k)) := by
  rw [joinEnv, Env.extend_self, Joined.storedRow, latestCells, Record.texts, List.map_map,
    lookup_location hk]
  rfl

theorem joinEnv_latest (row other : Record) :
    joinEnv r rows row (other.texts r.level.keyColumns) Relation.latestSource "latest_year" =
      .ok (.int (latest (rowsOf r.level.keyColumns rows (other.texts r.level.keyColumns)))) := by
  rw [joinEnv, Env.extend_self, Joined.storedRow, latestCells]
  generalize latest _ = year
  cases r.level <;> rfl

/-- Each row belongs to one location, so of all pairs of a row and a location one is left for each
row. -/
theorem filter_product (columns : List String) (rows : List Record) :
    (rows ×ˢ locations columns rows).filter (fun p => decide (p.1.texts columns = p.2)) =
      rows.map fun row => (row, row.texts columns) := by
  show (rows.flatMap fun row => (locations columns rows).map (Prod.mk row)).filter _ = _
  rw [List.filter_flatMap, List.map_eq_flatMap]
  refine List.flatMap_congr fun row hrow => ?_
  have mem : row.texts columns ∈ locations columns rows := mem_locations.2 ⟨row, hrow, rfl⟩
  rw [List.filter_map]
  have one : (locations columns rows).filter
      (fun location => decide (row.texts columns = location)) = [row.texts columns] := by
    simp only [eq_comm (a := row.texts columns)]
    rw [List.filter_eq, List.count_eq_one_of_mem (nodup_locations columns rows) mem]
    rfl
  exact congrArg (List.map (Prod.mk row)) one

/-- The conditions of the join. -/
def joinConditions (r : Relation) : List Condition :=
  r.level.keyColumns.map fun k =>
    .compare .eq (.column r.name k) (.column Relation.latestSource k)

/-- They hold of a row and its own location. -/
theorem holdAll_eq (rollup : r.family = .rollup) (monthly : r.grain = .month)
    (h : r.MonthlyContent rows) {row : Record} (hrow : row ∈ rows) (other : Record) :
    Condition.holdAll d (joinConditions r) (joinEnv r rows row (other.texts r.level.keyColumns)) =
      .ok (decide (row.texts r.level.keyColumns = other.texts r.level.keyColumns)) := by
  refine Condition.holdAll_sameTexts (fun k hk => ?_) fun k hk => joinEnv_location row other hk
  rw [joinEnv_name rollup monthly, h.keyed.stored_text hrow hk]

/-- What the columns hold for a row and the latest year of its location: those of the row, and the
year under the name of the selection. -/
def windowEnv (r : Relation) (rows : List Record) (row : Record) : Env :=
  joinEnv r rows row (row.texts r.level.keyColumns)

/-- The rows of the join: each row with the latest year of its location. No row is lost and none
comes twice. -/
theorem envs_join (rollup : r.family = .rollup) (monthly : r.grain = .month)
    (h : r.MonthlyContent rows) (stored : tables r.name = rows.map Record.stored) :
    Source.envs d tables ⟨⟨r.name, none⟩, some
      (.derived r.latestYears Relation.latestSource, joinConditions r)⟩ =
      .ok (rows.map (windowEnv r rows)) := by
  have pairs : Source.envs d tables ⟨⟨r.name, none⟩, some
      (.derived r.latestYears Relation.latestSource, joinConditions r)⟩ =
      .ok (((rows ×ˢ locations r.level.keyColumns rows).filter fun p =>
        decide (p.1.texts r.level.keyColumns = p.2)).map fun p => joinEnv r rows p.1 p.2) := by
    refine Source.envs_join stored (rows_latestYears h stored) fun p hp => ?_
    obtain ⟨hrow, hlocation⟩ := List.mem_product.1 hp
    obtain ⟨other, -, here⟩ := mem_locations.1 hlocation
    have held := holdAll_eq (d := d) rollup monthly h hrow other
    rw [here] at held
    exact held
  rw [pairs, filter_product, List.map_map]
  rfl

/-! ### Slopes

The slope of a field is taken of months since the beginning of the calendar, both coordinates cast
to double precision. In exact arithmetic the casts change nothing. -/

section Slopes

variable {env : Record → Env} {source name : String} {group : List Record} {row : Record}

/-- The months since the beginning of the calendar, as a number in double precision. -/
def ordinalTerm (source : String) : Term :=
  .cast (.arithmetic .add (.arithmetic .mul (.column source "year") (.bound (.int 12)))
    (.column source "month")) .float

theorem cell_ordinalTerm (exact : d.Exact) (h : r.MonthlyContent rows)
    (hsource : ∀ row, env row source = row.stored) (hrow : row ∈ rows) :
    (ordinalTerm source).cell d [env row] = .ok (.number .double row.ordinal) := by
  have year := column_int_eq (d := d) h hrow hsource List.mem_cons_self
  have month := column_int_eq (d := d) h hrow hsource
    (List.mem_cons_of_mem "year" List.mem_cons_self)
  have twelve : (Term.bound (.int 12)).cell d [env row] = .ok (.int 12) := rfl
  have months := (Term.cell_arithmetic .mul year twelve).trans (d.arithmetic_mul_int _ _)
  have sum := (Term.cell_arithmetic .add months month).trans (d.arithmetic_add_int _ _)
  exact (Term.cell_cast .float sum).trans (exact.double_eq _)

/-- What is measured, as a number in double precision. -/
theorem cell_measured (exact : d.Exact) (h : r.MonthlyContent rows)
    (hsource : ∀ row, env row source = row.stored) (hname : name ∈ r.type.measured)
    (hrow : row ∈ rows) :
    (Term.cast (.column source name) .float).cell d [env row] =
      .ok ((row.getD name).rational?.elim .null (.number .double)) := by
  obtain ⟨v, hv, measured⟩ := h.measured row hrow name hname
  obtain ⟨cell, stored, cast⟩ := exact.cast_measured measured
  have column : (Term.column source name).cell d [env row] = .ok cell := by
    rw [Term.cell_column, hsource, Record.stored_eq hv, stored]
  rw [Term.cell_cast .float column, cast, Record.getD_eq hv]

/-- The slope of a field in a group of rows, rounded away from zero. -/
theorem cell_slope (exact : d.Exact) (h : r.MonthlyContent rows)
    (hsource : ∀ row, env row source = row.stored) (within : group ⊆ rows)
    (hname : name ∈ r.type.measured) :
    (Relation.slopeTerm source name).cell d (group.map env) =
      .ok (slopeCell ((regressionSlope (points name group)).map
        (roundAway SlopeRow.precision))) := by
  have coordinates : ((group.map env).mapM fun env => do
      return (← (Term.cast (.column source name) .float).cell d [env],
        ← (ordinalTerm source).cell d [env])) =
      .ok (group.map fun row => ((row.getD name).rational?.elim .null (.number .double),
        .number .double row.ordinal)) := by
    rw [List.mapM_map]
    refine Outcome.mapM_eq_ok_map fun row hrow => ?_
    rw [Function.comp_apply, cell_measured exact h hsource hname (within hrow),
      cell_ordinalTerm exact h hsource (within hrow)]
    rfl
  have slope := (Term.cell_slope coordinates).trans (Dialect.slope_eq group _ _)
  rw [Relation.slopeTerm, points]
  cases found : regressionSlope (group.filterMap fun row =>
      (row.getD name).rational?.map fun y => ((row.ordinal : ℚ), y)) with
  | none =>
    rw [found] at slope
    exact Term.cell_cast .float (Term.cell_round _ (Term.cell_cast .number slope))
  | some s =>
    rw [found, Option.elim_some, exact.double_eq] at slope
    have precise : d.cast (.number .double s) .number = .ok (.number .exact s) :=
      congrArg (fun x => Except.ok (Cell.number .exact x)) (exact.toExact_eq s)
    have rounded := Term.cell_round SlopeRow.precision
      ((Term.cell_cast .number slope).trans precise)
    exact (Term.cell_cast .float rounded).trans (exact.double_eq _)

end Slopes

/-! ### The rows of the statement

What is kept of the join are the rows of the latest years, and their groups are the windows. Every
location has a window, since its latest year is a year of one of its rows. -/

section Rows

/-- Is the row one of the latest year of its location? The condition of the statement asks for just
that. -/
def isLatest (columns : List String) (rows : List Record) (row : Record) : Bool :=
  decide (row.year = latest (rowsOf columns rows (row.texts columns)))

/-- The rows of a location that are of its latest year are its window, which is what is computed
with at hand. -/
theorem filter_isLatest (columns : List String) (rows : List Record) (location : List String) :
    (rows.filter (isLatest columns rows)).filter (fun row => row.texts columns = location) =
      windowOf columns rows location := by
  rw [List.filter_filter, windowOf, window, rowsOf, List.filter_filter]
  refine List.filter_congr fun row _ => ?_
  by_cases here : row.texts columns = location
  · simp [isLatest, here, rowsOf]
  · simp [here]

/-- Every location has a latest year, and so it has a row of that year. -/
theorem locations_isLatest (columns : List String) (rows : List Record) :
    ((rows.filter (isLatest columns rows)).map (Record.texts columns)).dedup.Perm
      (locations columns rows) := by
  refine (List.perm_ext_iff_of_nodup (List.nodup_dedup _)
    (nodup_locations _ _)).2 fun location => ?_
  rw [List.mem_dedup, List.mem_map]
  constructor
  · rintro ⟨row, hrow, rfl⟩
    exact mem_locations.2 ⟨row, List.mem_of_mem_filter hrow, rfl⟩
  · intro hlocation
    obtain ⟨row, hrow⟩ := List.exists_mem_of_ne_nil _ (windowOf_ne_nil hlocation)
    rw [← filter_isLatest] at hrow
    obtain ⟨kept, here⟩ := List.mem_filter.1 hrow
    exact ⟨row, kept, of_decide_eq_true here⟩

/-- What is shown of a window in integers. -/
def dateOutputs (source : String) : List Output :=
  [⟨.aggregate .max (.column source "year"), some "year"⟩,
    ⟨.aggregate .max (.column source "month"), some "month"⟩,
    ⟨.cast .countRows .integer, some "window_months"⟩,
    ⟨.aggregate .max (.column Relation.latestSource "latest_year"), some "window_start_year"⟩,
    ⟨.aggregate .min (.column source "month"), some "window_start_month"⟩]

theorem row_dateOutputs (h : r.MonthlyContent rows) {env : Record → Env} {source : String}
    (hsource : ∀ row, env row source = row.stored) {group : List Record} (nonempty : group ≠ [])
    (within : group ⊆ rows)
    (hlatest : ∀ row ∈ group, (Term.column Relation.latestSource "latest_year").cell d [env row] =
      .ok (.int row.year)) :
    Output.row d (dateOutputs source) (group.map env) =
      .ok ((dates group).map (Prod.map id .int)) := by
  have month : ∀ row ∈ group, (Term.column source "month").cell d [env row] =
      .ok (.int (row.int "month")) := fun row hrow =>
    column_int_eq h (within hrow) hsource (List.mem_cons_of_mem _ List.mem_cons_self)
  have year : ∀ row ∈ group, (Term.column source "year").cell d [env row] = .ok (.int row.year) :=
    fun row hrow => column_int_eq h (within hrow) hsource List.mem_cons_self
  have count :
      (Term.cast .countRows .integer).cell d (group.map env) = .ok (.int group.length) := by
    have counted : Term.countRows.cell d (group.map env) = .ok (.int (group.map env).length) := rfl
    rw [Term.cell_cast .integer counted, Dialect.cast_int, List.length_map]
  rw [Output.row, dateOutputs, List.mapM_cons, List.mapM_cons, List.mapM_cons, List.mapM_cons,
    List.mapM_cons, cell_greatest nonempty year, cell_greatest nonempty month, count,
    cell_greatest nonempty hlatest, cell_least nonempty month]
  rfl

/-- What is shown of a location. -/
def windowOutputs (r : Relation) : List Output :=
  r.level.keyColumns.map (fun k => ⟨.column r.name k, none⟩) ++ dateOutputs r.name ++
    r.type.measured.map fun name => ⟨Relation.slopeTerm r.name name, some (slopeColumn name)⟩

/-- The statement that computes the slopes of a rollup. -/
def windowStatement (r : Relation) : Statement where
  outputs := windowOutputs r
  source := ⟨⟨r.name, none⟩, some
    (.derived r.latestYears Relation.latestSource, joinConditions r)⟩
  conditions := [.compare .eq (.column r.name "year")
    (.column Relation.latestSource "latest_year")]
  groups := r.level.keyColumns.map fun k => .column r.name k

theorem slopeStatement_eq (rollup : r.family = .rollup) (monthly : r.grain = .month) :
    r.slopeStatement = .ok (windowStatement r) := if_pos ⟨rollup, monthly⟩

/-- The row of a location. -/
theorem row_windowOutputs (rollup : r.family = .rollup) (monthly : r.grain = .month)
    (exact : d.Exact) (h : r.MonthlyContent rows) {location : List String}
    (hlocation : location ∈ locations r.level.keyColumns rows) :
    Output.row d (windowOutputs r)
      ((windowOf r.level.keyColumns rows location).map (windowEnv r rows)) =
      .ok (windowCells (roundAway SlopeRow.precision) r location
        (windowOf r.level.keyColumns rows location)) := by
  have own (row : Record) : windowEnv r rows row r.name = row.stored :=
    joinEnv_name rollup monthly row _
  have nonempty := windowOf_ne_nil hlocation
  have within : ∀ row ∈ windowOf r.level.keyColumns rows location,
      row ∈ rows ∧ row.texts r.level.keyColumns = location := by
    intro row hrow
    obtain ⟨hrow, here, -⟩ := of_mem_windowOf hrow
    exact ⟨hrow, here⟩
  have located : Output.row d (r.level.keyColumns.map fun k => ⟨.column r.name k, none⟩)
      ((windowOf r.level.keyColumns rows location).map (windowEnv r rows)) = .ok _ :=
    row_location h own (fun _ => rfl) nonempty within
  have latest_eq : ∀ row ∈ windowOf r.level.keyColumns rows location,
      (Term.column Relation.latestSource "latest_year").cell d [windowEnv r rows row] =
        .ok (.int row.year) := by
    intro row hrow
    obtain ⟨-, here, year⟩ := of_mem_windowOf hrow
    rw [Term.cell_column, windowEnv, joinEnv_latest, here, year]
  have subset : windowOf r.level.keyColumns rows location ⊆ rows := fun row hrow =>
    (within row hrow).1
  have dated := row_dateOutputs h own nonempty subset latest_eq
  have slopes : Output.row d (r.type.measured.map fun name =>
      ⟨Relation.slopeTerm r.name name, some (slopeColumn name)⟩)
      ((windowOf r.level.keyColumns rows location).map (windowEnv r rows)) =
      .ok (r.type.measured.map fun name => (slopeColumn name, slopeCell ((regressionSlope
        (points name (windowOf r.level.keyColumns rows location))).map
          (roundAway SlopeRow.precision)))) := by
    rw [Output.row, List.mapM_map]
    refine Outcome.mapM_eq_ok_map fun name hname => ?_
    rw [Function.comp_apply, cell_slope exact h own subset hname]
    rfl
  exact Outcome.mapM_append_eq_ok (Outcome.mapM_append_eq_ok located dated) slopes

/-- The rows of the statement: there is one for each location, and none is refused. -/
theorem exists_table (rollup : r.family = .rollup) (monthly : r.grain = .month) (exact : d.Exact)
    (h : r.MonthlyContent rows) (stored : tables r.name = rows.map Record.stored) :
    ∃ table, (windowStatement r).rows d tables = .ok table ∧
      table.Perm (tableCells (roundAway SlopeRow.precision) r rows) := by
  have own (row : Record) : windowEnv r rows row r.name = row.stored :=
    joinEnv_name rollup monthly row _
  have grouped : (windowStatement r).groups ≠ [] := by
    rw [windowStatement]
    cases r.level <;> exact List.cons_ne_nil _ _
  have selected : (windowStatement r).rowsOf d (rows.map (windowEnv r rows)) =
      .ok (((rows.filter (isLatest r.level.keyColumns rows)).map
        (Record.texts r.level.keyColumns)).dedup.map fun location =>
          windowCells (roundAway SlopeRow.precision) r location
            (windowOf r.level.keyColumns rows location)) := by
    refine Query.rowsOf_grouped _ grouped text_injective ?_ ?_ ?_
    · intro row hrow
      have year : (Term.column r.name "year").cell d [windowEnv r rows row] = .ok (.int row.year) :=
        column_int_eq h hrow own List.mem_cons_self
      have latest_eq : (Term.column Relation.latestSource "latest_year").cell d
          [windowEnv r rows row] = .ok (.int (latest (rowsOf r.level.keyColumns rows
            (row.texts r.level.keyColumns)))) := joinEnv_latest row row
      have compared := (Condition.truth_compare .eq year latest_eq).trans (d.test_int_eq _ _)
      refine (Condition.holdAll_singleton compared).trans ?_
      simp only [Truth.ofBool_eq_yes, decide_eq_true_eq]
      rfl
    · intro row hrow
      exact keys_eq h hrow own
    · intro location hlocation
      rw [filter_isLatest]
      exact row_windowOutputs rollup monthly exact h ((locations_isLatest _ _).subset hlocation)
  refine ⟨_, ?_, (locations_isLatest r.level.keyColumns rows).map _⟩
  have joined : (windowStatement r).source.envs d tables = .ok (rows.map (windowEnv r rows)) :=
    envs_join rollup monthly h stored
  rw [Query.rows, joined, Outcome.ok_bind, selected]

end Rows

/-! ### Both ways

Both lists of rows are made from the same windows by one function, with a rounding as its argument.
So they only differ where the two roundings of a slope do. -/

section Both

variable {location other : List String} {window otherWindow : List Record} {round round' : ℚ → ℚ}

/-- Two rows are the same only if their locations and their slopes are. -/
theorem eq_of_windowCells_eq (hlocation : location.length = r.level.keyColumns.length)
    (hother : other.length = r.level.keyColumns.length)
    (same : windowCells round r location window = windowCells round' r other otherWindow) :
    location = other ∧ ∀ name ∈ r.type.measured,
      (regressionSlope (points name window)).map round =
        (regressionSlope (points name otherWindow)).map round' := by
  rw [windowCells, windowCells] at same
  obtain ⟨front, slopes⟩ := List.append_inj same (by simp [dates, hlocation, hother])
  obtain ⟨located, -⟩ := List.append_inj front (by simp [hlocation, hother])
  refine ⟨text_injective ?_, fun name hname => ?_⟩
  · have texts := congrArg (List.map Prod.snd) located
    rwa [List.map_snd_zip (by simp [hlocation]), List.map_snd_zip (by simp [hother])] at texts
  · have cells := (Prod.mk.inj (List.map_inj_left.1 slopes name hname)).2
    generalize (regressionSlope (points name window)).map round = a at cells
    generalize (regressionSlope (points name otherWindow)).map round' = b at cells
    cases a <;> cases b <;> simp_all [slopeCell]

theorem length_of_mem_locations {columns : List String} (h : location ∈ locations columns rows) :
    location.length = columns.length := by
  obtain ⟨row, -, rfl⟩ := mem_locations.1 h
  exact List.length_map _

/-- Whether slopes are rounded the one way or the other makes a difference exactly if there is one
for a slope. -/
theorem tableCells_perm_iff :
    (tableCells round r rows).Perm (tableCells round' r rows) ↔
      ∀ location ∈ locations r.level.keyColumns rows, ∀ name ∈ r.type.measured,
        ∀ slope ∈ regressionSlope (points name (windowOf r.level.keyColumns rows location)),
          round slope = round' slope := by
  constructor
  · intro same location hlocation name hname slope hslope
    obtain ⟨other, hother, eq⟩ := List.mem_map.1 (same.subset (List.mem_map_of_mem hlocation))
    obtain ⟨rfl, slopes⟩ := eq_of_windowCells_eq (length_of_mem_locations hother)
      (length_of_mem_locations hlocation) eq
    have rounded := slopes name hname
    rw [hslope, Option.map_some, Option.map_some, Option.some_inj] at rounded
    exact rounded.symm
  · intro alike
    refine List.Perm.of_eq (List.map_congr_left fun location hlocation => ?_)
    rw [windowCells, windowCells]
    refine congrArg _ (List.map_congr_left fun name hname => ?_)
    rw [Option.map_congr (alike location hlocation name hname)]

end Both

/-- **What the statement denotes, and what is computed of the same rows at hand.** Both have one row
for each location, with the same cells but for the slopes, and they are the same rows exactly if no
slope is halfway from an even neighbour. Neither of them is refused. -/
theorem slopes_denote (rollup : r.family = .rollup) (monthly : r.grain = .month)
    (h : r.MonthlyContent rows) (tables : Tables) (stored : tables r.name = rows.map Record.stored)
    (exact : d.Exact) :
    ∃ statement table found computed,
      r.slopeStatement = .ok statement ∧ statement.rows d tables = .ok table ∧
      SlopeRow.compute ℚ r.level r.type.measured rows = .ok found ∧
      found.mapM (cells r.level) = .ok computed ∧
      table.Perm (tableCells (roundAway SlopeRow.precision) r rows) ∧
      computed.Perm (tableCells (roundRat SlopeRow.precision) r rows) ∧
      (table.Perm computed ↔ ∀ location ∈ locations r.level.keyColumns rows,
        ∀ name ∈ r.type.measured,
          ∀ slope ∈ regressionSlope (points name (windowOf r.level.keyColumns rows location)),
            ¬IsHalfwayFromEven SlopeRow.precision slope) := by
  obtain ⟨table, htable, perm⟩ := exists_table rollup monthly exact h stored
  obtain ⟨found, computed, hfound, hcomputed, perm'⟩ := exists_cells h
  refine ⟨_, table, found, computed, slopeStatement_eq rollup monthly, htable, hfound, hcomputed,
    perm, perm', ?_⟩
  have rounded : (tableCells (roundAway SlopeRow.precision) r rows).Perm
      (tableCells (roundRat SlopeRow.precision) r rows) ↔ _ := tableCells_perm_iff
  simp only [roundAway_eq_roundRat_iff] at rounded
  rw [← rounded, perm.congr_left, perm'.congr_right]

/-! ### A slope halfway between two numbers of six places

Two months in which everything that is measured goes from nothing to one over 128. The slope has
seven places, and the last one of them is a five. -/

/-- Numbers change their kind without a loss. -/
def exactDialect : Dialect where
  toDouble := some
  toExact := id
  sent := id
  likes _ _ := false
  meets _ _ := false

/-- A month of a commune in which everything that is measured is the same number. -/
def uniformMonth (month : ℤ) (x : Double) : Record :=
  [("insee_code", .text "75112"), ("year", .int 2024), ("month", .int month)] ++
    PropertyType.apartment.measured.map fun name => (name, .double x)

/-- From nothing to the 128th part of one, which has seven places. -/
def sevenPlaces : List Record :=
  [uniformMonth 1 .zero, uniformMonth 2 (.finite false 4503599627370496 (-59))]

theorem get?_uniformMonth (month : ℤ) (x : Double) :
    ∀ name ∈ PropertyType.apartment.measured,
      (uniformMonth month x).get? name = some (.double x) := by
  have each : PropertyType.apartment.measured.map (uniformMonth month x).get? =
      PropertyType.apartment.measured.map fun _ => some (.double x) := rfl
  exact List.map_inj_left.1 each

theorem monthlyContent_sevenPlaces :
    Relation.MonthlyContent ⟨.rollup, .commune, .apartment, .month⟩ sevenPlaces := by
  have rows : ∀ row ∈ sevenPlaces, ∃ month x, row = uniformMonth month x ∧ x.isFinite := by
    rintro row hrow
    obtain rfl | hrow := List.mem_cons.1 hrow
    · exact ⟨1, .zero, rfl, rfl⟩
    · obtain rfl := List.mem_singleton.1 hrow
      exact ⟨2, .finite false 4503599627370496 (-59), rfl, rfl⟩
  refine ⟨⟨fun row hrow k hk => ?_, fun row hrow k hk => ?_, ?_⟩, fun row hrow name hname => ?_⟩
  · obtain ⟨month, x, rfl, -⟩ := rows row hrow
    obtain rfl := List.mem_singleton.1 hk
    exact ⟨"75112", rfl⟩
  · obtain ⟨month, x, rfl, -⟩ := rows row hrow
    obtain rfl | hk := List.mem_cons.1 hk
    · exact ⟨2024, rfl⟩
    · obtain rfl := List.mem_singleton.1 hk
      exact ⟨month, rfl⟩
  · refine List.pairwise_pair.2 fun same => ?_
    have months : ([.text "75112", .int 2024, .int 1] : RowKey) =
        [.text "75112", .int 2024, .int 2] := same
    simp at months
  · obtain ⟨month, x, rfl, finite⟩ := rows row hrow
    exact ⟨.double x, get?_uniformMonth month x name hname, .double finite⟩

/-- The store gives 0.007813, and rows at hand give 0.007812. -/
theorem slopes_sevenPlaces :
    ∃ statement table found computed,
      Relation.slopeStatement ⟨.rollup, .commune, .apartment, .month⟩ = .ok statement ∧
      statement.rows exactDialect (fun _ => sevenPlaces.map Record.stored) = .ok table ∧
      SlopeRow.compute ℚ .commune PropertyType.apartment.measured sevenPlaces = .ok found ∧
      found.mapM (cells .commune) = .ok computed ∧ ¬table.Perm computed := by
  obtain ⟨statement, table, found, computed, hs, htable, hfound, hcomputed, -, -, same⟩ :=
    slopes_denote (d := exactDialect) rfl rfl monthlyContent_sevenPlaces
      (fun _ => sevenPlaces.map Record.stored) rfl ⟨fun _ => rfl, fun _ => rfl⟩
  refine ⟨statement, table, found, computed, hs, htable, hfound, hcomputed, fun perm => ?_⟩
  have slope : regressionSlope (points "total_sales"
      (windowOf Level.commune.keyColumns sevenPlaces ["75112"])) = some (1 / 128) := by
    decide +kernel
  have located : ["75112"] ∈ locations Level.commune.keyColumns sevenPlaces := by
    decide +kernel
  have halfway : IsHalfwayFromEven SlopeRow.precision (1 / 128) := by
    refine ⟨3906, ?_⟩
    rw [SlopeRow.precision]
    norm_num [abs_of_pos]
  exact same.1 perm ["75112"] located "total_sales" List.mem_cons_self (1 / 128) slope halfway

end SlopeWindow

end PropertyMarket
