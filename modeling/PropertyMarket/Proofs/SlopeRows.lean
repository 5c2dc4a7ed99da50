import PropertyMarket.Proofs.KeyOrder
import PropertyMarket.Proofs.Meaning
import PropertyMarket.Proofs.Regression
import PropertyMarket.Slope

/-!
# Slopes of rows at hand

The slopes of a location are those within its window: the rows of its latest year. What is said of a
window is a function of the rows in it, so the rows with slopes are written down once, location by
location, with the rounding of the slopes left open; of rows at hand, they are rounded to the even
one of two neighbours.

## Main definitions

* `outermost` — the greatest of some integers, or the least one
* `Relation.MonthlyContent` — rows of finite numbers, one for each location and month
* `SlopeWindow.Monthly` — rows of any numbers, with any number of them for a location and month
* `SlopeWindow.locations`, `SlopeWindow.windowOf` — the locations of rows, and their windows
* `SlopeWindow.windowCells` — the row of a location, given how its slopes are rounded
* `SlopeWindow.cells` — the columns of a row with slopes, as a statement shows them

## Main results

* `SlopeWindow.compute_eq` — the rows with slopes are those of the locations, in their order
* `SlopeWindow.cells_slopeRow` — and hold the cells of their windows

## Implementation notes

`windowCells` is what both ways of computing slopes have in common: it takes the rounding as an
argument, and the rows at hand and the statement are both shown to be made of it. The locations are
listed without an order, because a statement gives its rows in none; of rows at hand it is known as
well that they are sorted.

The content of a rollup, of finite numbers and with one row for each month, is only asked for where
the store comes in. What is said of rows at hand holds of any rows of texts and integers.
-/

namespace PropertyMarket

/-! ### The greatest and the least integer

The program finds the last and the first month by comparing values one after the other, and the
store by an aggregate. Of integers both find what `outermost` does. -/

/-- Of two integers the greater one, or the lesser one. -/
def better (greatest : Bool) (a b : ℤ) : ℤ := if greatest then max a b else min a b

/-- The greatest of some integers, or the least one, and zero if there are none. -/
def outermost (greatest : Bool) : List ℤ → ℤ
  | [] => 0
  | x :: xs => xs.foldl (better greatest) x

theorem outermost_mem {xs : List ℤ} (h : xs ≠ []) : outermost true xs ∈ xs := by
  cases xs with
  | nil => exact absurd rfl h
  | cons y ys =>
    have greatest : (y :: ys).max? = some (outermost true (y :: ys)) := List.max?_cons'
    exact (List.max?_eq_some_iff.1 greatest).1

theorem if_lt_eq_better (greatest : Bool) (a b : ℤ) :
    (if (if greatest then a < b else b < a) then b else a) = better greatest a b := by
  cases greatest with
  | true => exact (max_def_lt a b).symm
  | false => exact (min_def_lt b a).symm.trans (min_comm b a)

namespace Value

theorem prefer_int (greatest : Bool) (a b : ℤ) :
    prefer greatest (.int a) (.int b) = .ok (.int (better greatest a b)) := by
  have compared (m n : ℤ) : isBefore false (.int m) (.int n) = .ok (decide (m < n)) :=
    congrArg Except.ok (Number.lt_int m n)
  have chosen (m n : ℤ) (p : Prop) [Decidable p] :
      (do
        let better ← (Except.ok (decide p) : Except Fault Bool)
        return if better then Value.int m else .int n) = .ok (.int (if p then m else n)) := by
    by_cases h : p <;> simp [h]
  rw [prefer, compared, compared, ← if_lt_eq_better]
  cases greatest with
  | true => exact chosen b a (a < b)
  | false => exact chosen b a (b < a)

/-- The extreme of integers at hand. -/
theorem extreme_int (greatest : Bool) {xs : List ℤ} (h : xs ≠ []) :
    extreme greatest (xs.map .int) = .ok (.int (outermost greatest xs)) := by
  cases xs with
  | nil => exact absurd rfl h
  | cons x xs =>
    rw [List.map_cons, extreme, List.foldlM_map]
    exact Outcome.foldlM_eq_ok_wrap (fun b _ a => prefer_int greatest a b) x

end Value

namespace Dialect

variable (d : Dialect)

theorem prefer_int (greatest : Bool) (a b : ℤ) :
    d.prefer greatest (.int a) (.int b) = .ok (.int (better greatest a b)) := by
  rw [Cell.int, Cell.int, prefer_number, ← if_lt_eq_better]
  simp only [Int.cast_lt]
  by_cases next : if greatest then a < b else b < a
  · rw [if_pos next, if_pos next, Cell.int]
  · rw [if_neg next, if_neg next, Cell.int]

theorem foldlM_prefer_int (greatest : Bool) {xs : List ℤ} (h : xs ≠ []) :
    (xs.map Cell.int).foldlM (d.prefer greatest) .null =
      .ok (.int (outermost greatest xs)) := by
  cases xs with
  | nil => exact absurd rfl h
  | cons x xs =>
    rw [List.map_cons, List.foldlM_cons, prefer_null, Outcome.ok_bind, List.foldlM_map]
    exact Outcome.foldlM_eq_ok_wrap (fun b _ a => d.prefer_int greatest a b) x

/-- The greatest integer of a group. -/
theorem aggregate_greatest {xs : List ℤ} (h : xs ≠ []) :
    d.aggregate .max (xs.map Cell.int) = .ok (.int (outermost true xs)) :=
  d.foldlM_prefer_int true h

/-- The least integer of a group. -/
theorem aggregate_least {xs : List ℤ} (h : xs ≠ []) :
    d.aggregate .min (xs.map Cell.int) = .ok (.int (outermost false xs)) :=
  d.foldlM_prefer_int false h

end Dialect

/-! ### Windows

A window is made in two steps, the rows of a location and of these the rows of the latest year.
Everything that is said of a location is a function of its window. -/

/-- The months since the beginning of the calendar. -/
def Record.ordinal (row : Record) : ℤ := row.year * monthsInYear + row.int "month"

/-- What a monthly rollup may hold: one row for each location and month, with finite numbers or
nothing in what is measured. -/
structure Relation.MonthlyContent (r : Relation) (rows : List Record) : Prop where
  keyed : Record.Keyed r.level.keyColumns ["year", "month"] rows
  measured : ∀ row ∈ rows, ∀ name ∈ r.type.measured, ∃ v, row.get? name = some v ∧ v.Measured

namespace SlopeWindow

/-- The locations of rows, each once, however many rows it has. -/
def locations (columns : List String) (rows : List Record) : List (List String) :=
  (rows.map (Record.texts columns)).dedup

/-- The rows of a location. -/
def rowsOf (columns : List String) (rows : List Record) (location : List String) : List Record :=
  rows.filter fun row => row.texts columns = location

/-- The latest year of some rows. -/
def latest (rows : List Record) : ℤ := outermost true (rows.map Record.year)

/-- The rows of the latest year. -/
def window (rows : List Record) : List Record := rows.filter fun row => row.year = latest rows

/-- The rows of the latest year of a location, in the order in which they are given. -/
def windowOf (columns : List String) (rows : List Record) (location : List String) :
    List Record :=
  window (rowsOf columns rows location)

/-- The points of a field within a window. -/
def points (name : String) (window : List Record) : List (ℚ × ℚ) :=
  window.filterMap fun row => (row.getD name).rational?.map fun y => ((row.ordinal : ℚ), y)

/-- A slope as a cell. -/
def slopeCell : Option ℚ → Cell
  | some slope => .number .double slope
  | none => .null

/-- The cells of a row with a window and slopes, in the columns of a statement. -/
def cells (level : Level) (row : SlopeRow (Option ℚ)) :
    Except Refusal (List (String × Cell)) := do
  let window ← Record.cells (level.keyColumns.zip [row.inseeCode, row.cadastral] ++
    [("year", row.year), ("month", row.month), ("window_months", row.windowMonths),
      ("window_start_year", row.windowStartYear), ("window_start_month", row.windowStartMonth)])
  return window ++ row.slopes.map fun slope => (slopeColumn slope.1, slopeCell slope.2)

/-- What is said of a window in integers. -/
def dates (window : List Record) : List (String × ℤ) :=
  [("year", latest window), ("month", outermost true (window.map (·.int "month"))),
    ("window_months", window.length), ("window_start_year", latest window),
    ("window_start_month", outermost false (window.map (·.int "month")))]

/-- The row of a location with the rows of its latest year, given how slopes are rounded. The order
of the rows in the window does not matter for any of its cells. -/
def windowCells (round : ℚ → ℚ) (r : Relation) (location : List String) (window : List Record) :
    List (String × Cell) :=
  r.level.keyColumns.zip (location.map .text) ++ (dates window).map (Prod.map id .int) ++
    r.type.measured.map fun name =>
      (slopeColumn name, slopeCell ((regressionSlope (points name window)).map round))

/-- The rows of all locations. -/
def tableCells (round : ℚ → ℚ) (r : Relation) (rows : List Record) : List (List (String × Cell)) :=
  (locations r.level.keyColumns rows).map fun location =>
    windowCells round r location (windowOf r.level.keyColumns rows location)

/-! ### Rows at hand

Rows are put together by location, the rows of the latest year are taken of each, and a slope is
computed for each field. None of these steps fails on rows of texts, integers and numbers. -/

/-- Monthly rows: locations are texts, years and months are integers, and what has a slope is a
number or null. -/
structure Monthly (level : Level) (fields : List String) (rows : List Record) : Prop where
  typed : Record.Typed level.keyColumns ["year", "month"] rows
  valued : ∀ row ∈ rows, ∀ name ∈ fields, (row.getD name).Valued

section AtHand

variable {r : Relation} {level : Level} {fields : List String} {rows group : List Record}
  {row : Record} {location : List String}

theorem exists_latest (h : rows ≠ []) : ∃ row ∈ rows, row.year = latest rows :=
  List.mem_map.1 (outermost_mem (mt List.map_eq_nil_iff.1 h))

theorem window_ne_nil (h : rows ≠ []) : window rows ≠ [] := by
  obtain ⟨row, hrow, year⟩ := exists_latest h
  exact List.ne_nil_of_mem (List.mem_filter.2 ⟨hrow, decide_eq_true year⟩)

theorem year_of_mem_window (h : row ∈ window rows) : row.year = latest rows :=
  of_decide_eq_true (List.mem_filter.1 h).2

/-- Within a window every year is the latest. -/
theorem latest_window (h : rows ≠ []) : latest (window rows) = latest rows := by
  obtain ⟨row, hrow, year⟩ := exists_latest (window_ne_nil h)
  rw [← year, year_of_mem_window hrow]

theorem month_eq (h : Monthly level fields rows) (hrow : row ∈ rows) :
    row.require "month" = .ok (.int (row.int "month")) :=
  Record.require_eq (h.typed.get?_int hrow (by simp))

theorem year_eq (h : Monthly level fields rows) (hrow : row ∈ rows) :
    row.require "year" = .ok (.int row.year) :=
  Record.require_eq (h.typed.get?_int hrow (by simp))

theorem latestYear_eq (h : Monthly level fields rows) (within : group ⊆ rows)
    (nonempty : group ≠ []) :
    SlopeRow.latestYear group = .ok (.int (latest group)) := by
  cases group with
  | nil => exact absurd rfl nonempty
  | cons row rest =>
    have step : ∀ other ∈ rest, ∀ year : ℤ,
        (do Value.prefer true (.int year) (← other.require "year")) =
          .ok (.int (better true year other.year)) := by
      intro other hother year
      rw [year_eq h (within (List.mem_cons_of_mem _ hother)), Outcome.ok_bind, Value.prefer_int]
    rw [SlopeRow.latestYear, year_eq h (within List.mem_cons_self), Outcome.ok_bind, latest,
      List.map_cons, outermost, List.foldl_map]
    exact Outcome.foldlM_eq_ok_wrap step row.year

/-- The slope of a field, rounded. -/
theorem slopeOf_eq (h : Monthly level fields rows) (within : group ⊆ rows) {name : String}
    (hname : name ∈ fields) :
    SlopeRow.slopeOf ℚ group name =
      .ok ((regressionSlope (points name group)).map (roundRat SlopeRow.precision)) := by
  have found : group.mapM (fun row => do
      return (← monthOrdinal (← row.require "year") (← row.require "month"), row.getD name)) =
      (.ok (group.map fun row => (.int row.ordinal, row.getD name)) : Except Fault _) := by
    refine Outcome.mapM_eq_ok_map fun row hrow => ?_
    rw [year_eq h (within hrow), month_eq h (within hrow)]
    rfl
  rw [SlopeRow.slopeOf, found, Outcome.ok_bind,
    slopeOfPoints_eq (fun row _ => Value.rational?_int row.ordinal)
      fun row hrow => h.valued row (within hrow) name hname, leastSquaresSlope_eq]
  rfl

/-- The window and the slopes of a location, with slopes that are rounded as at hand. -/
def slopeRow (level : Level) (fields location : List String) (window : List Record) :
    SlopeRow (Option ℚ) where
  inseeCode := (location.map Value.text)[0]?.getD .null
  cadastral := if level = .cadastral then (location.map Value.text)[1]?.getD .null else .null
  year := .int (latest window)
  month := .int (outermost true (window.map (·.int "month")))
  windowMonths := .int window.length
  windowStartYear := .int (latest window)
  windowStartMonth := .int (outermost false (window.map (·.int "month")))
  slopes := fields.map fun name =>
    (name, (regressionSlope (points name window)).map (roundRat SlopeRow.precision))

/-- The rows of a location have a window, and slopes. -/
theorem ofGroup_eq (h : Monthly level fields rows) (within : group ⊆ rows)
    (nonempty : group ≠ []) :
    SlopeRow.ofGroup ℚ level fields (location.map .text, group) =
      .ok (slopeRow level fields location (window group)) := by
  have kept : group.filter (fun row => (row.getD "year").same (.int (latest group))) =
      window group := by
    refine List.filter_congr fun row hrow => ?_
    have same : (Value.int row.year).same (.int (latest group)) =
        decide (row.year = latest group) := Number.same_int _ _
    rw [Record.getD_eq (h.typed.get?_int (within hrow) (by simp)), ← same]
    rfl
  have inside : window group ⊆ rows := fun row hrow => within (List.mem_of_mem_filter hrow)
  have months : (window group).mapM (fun row => row.require "month") =
      .ok (((window group).map (·.int "month")).map .int) := by
    rw [List.map_map]
    exact Outcome.mapM_eq_ok_map fun row hrow => month_eq h (inside hrow)
  have slopes : fields.mapM (fun name => do
      return (name, ← SlopeRow.slopeOf ℚ (window group) name)) =
      (.ok (fields.map fun name => (name, (regressionSlope
        (points name (window group))).map (roundRat SlopeRow.precision))) : Except Fault _) := by
    refine Outcome.mapM_eq_ok_map fun name hname => ?_
    rw [slopeOf_eq h inside hname]
    rfl
  have some_month : (window group).map (·.int "month") ≠ [] :=
    mt List.map_eq_nil_iff.1 (window_ne_nil nonempty)
  rw [SlopeRow.ofGroup, latestYear_eq h within nonempty, Outcome.ok_bind]
  dsimp only
  rw [kept, months, Outcome.ok_bind, slopes, Outcome.ok_bind, Value.extreme_int true some_month,
    Value.extreme_int false some_month, ← latest_window nonempty]
  rfl

theorem mem_locations {columns : List String} :
    location ∈ locations columns rows ↔ ∃ row ∈ rows, row.texts columns = location := by
  rw [locations, List.mem_dedup, List.mem_map]

theorem nodup_locations (columns : List String) (rows : List Record) :
    (locations columns rows).Nodup := List.nodup_dedup _

theorem rowsOf_ne_nil {columns : List String} (h : location ∈ locations columns rows) :
    rowsOf columns rows location ≠ [] := by
  obtain ⟨row, hrow, here⟩ := mem_locations.1 h
  exact List.ne_nil_of_mem (List.mem_filter.2 ⟨hrow, decide_eq_true here⟩)

theorem windowOf_ne_nil {columns : List String} (h : location ∈ locations columns rows) :
    windowOf columns rows location ≠ [] := window_ne_nil (rowsOf_ne_nil h)

theorem of_mem_windowOf {columns : List String} (h : row ∈ windowOf columns rows location) :
    row ∈ rows ∧ row.texts columns = location ∧
      row.year = latest (rowsOf columns rows location) := by
  obtain ⟨hrow, here⟩ := List.mem_filter.1 (List.mem_of_mem_filter h)
  exact ⟨hrow, of_decide_eq_true here, year_of_mem_window h⟩

theorem represents_locations (columns : List String) (rows : List Record) :
    RowKey.Represents (List.map .text) (rows.map (Record.texts columns)) :=
  RowKey.represents_texts (n := columns.length) fun location hlocation => by
    obtain ⟨row, -, rfl⟩ := List.mem_map.1 hlocation
    rw [Record.texts, List.length_map]

theorem rowsAt_eq_rowsOf (columns : List String) (rows : List Record) (location : List String) :
    RowKey.rowsAt (Record.texts columns) rows location = rowsOf columns rows location :=
  List.filter_congr fun _ _ => decide_eq_decide.2 Iff.rfl

/-- Rows are put together by location. -/
theorem exists_byLocation (h : Monthly level fields rows) :
    ∃ groups, SlopeRow.byLocation level.keyColumns rows = .ok groups ∧
      groups.Perm ((RowKey.placesOf (Record.texts level.keyColumns) rows).map fun location =>
        (location.map .text, rowsOf level.keyColumns rows location)) := by
  have represents := represents_locations level.keyColumns rows
  have perm := represents.foldl_group_perm
  simp only [rowsAt_eq_rowsOf] at perm
  refine ⟨_, Outcome.foldlM_eq_ok_foldl (g := fun groups row =>
    RowKey.update ((row.texts level.keyColumns).map .text)
      (fun group => group.getD [] ++ [row]) groups) [] ?_, perm⟩
  intro row hrow groups
  have self := represents.alike _ (List.mem_map_of_mem hrow) _ (List.mem_map_of_mem hrow)
  rw [h.typed.ofRow_eq (List.subset_append_left _ _) hrow, Outcome.ok_bind, h.typed.key_eq hrow,
    self.check_eq]
  rfl

/-- The slopes of monthly rows: there is one row for each location, in their order, with the window
of the location. -/
theorem compute_eq (h : Monthly level fields rows) :
    SlopeRow.compute ℚ level fields rows =
      .ok ((RowKey.placesOf (Record.texts level.keyColumns) rows).map fun location =>
        slopeRow level fields location (windowOf level.keyColumns rows location)) := by
  obtain ⟨groups, hgroups, perm⟩ := exists_byLocation h
  have represents : RowKey.Represents (List.map Value.text)
      (RowKey.placesOf (Record.texts level.keyColumns) rows) :=
    (represents_locations level.keyColumns rows).subset fun location hlocation =>
      List.mem_map.2 (RowKey.mem_placesOf.1 hlocation)
  have sorted := represents.sort_eq_of_perm
    ((RowKey.pairwise_placesOf (Record.texts level.keyColumns) rows).imp le_of_lt) perm
  rw [SlopeRow.compute, hgroups, Outcome.ok_bind, sorted, Outcome.ok_bind, List.mapM_map]
  refine Outcome.mapM_eq_ok_map fun location hlocation => ?_
  exact ofGroup_eq h (List.filter_subset_self _)
    (rowsOf_ne_nil (mem_locations.2 (RowKey.mem_placesOf.1 hlocation)))

theorem placesOf_perm_locations (columns : List String) (rows : List Record) :
    (RowKey.placesOf (Record.texts columns) rows).Perm (locations columns rows) :=
  (List.perm_ext_iff_of_nodup (RowKey.nodup_placesOf _ _) (nodup_locations _ _)).2
    fun location => by rw [RowKey.mem_placesOf, mem_locations]

/-- What a monthly rollup holds has slopes. -/
theorem monthly_of_content (h : r.MonthlyContent rows) : Monthly r.level r.type.measured rows where
  typed := h.keyed.typed
  valued row hrow name hname := by
    obtain ⟨v, hv, measured⟩ := h.measured row hrow name hname
    rw [Record.getD_eq hv]
    exact measured.valued

theorem cells_slopeRow (r : Relation) (row : Record) (window : List Record) :
    cells r.level (slopeRow r.level r.type.measured (row.texts r.level.keyColumns) window) =
      .ok (windowCells (roundRat SlopeRow.precision) r (row.texts r.level.keyColumns) window) := by
  have located : Record.cells (r.level.keyColumns.zip
      [(slopeRow r.level r.type.measured (row.texts r.level.keyColumns) window).inseeCode,
        (slopeRow r.level r.type.measured (row.texts r.level.keyColumns) window).cadastral]) =
      .ok (r.level.keyColumns.zip ((row.texts r.level.keyColumns).map .text)) := by
    rw [slopeRow]
    cases r.level <;> rfl
  have dated : Record.cells ((dates window).map (Prod.map id .int)) =
      .ok ((dates window).map (Prod.map id .int)) := rfl
  have all := Outcome.mapM_append_eq_ok located dated
  rw [cells]
  refine (congrArg (· >>= _) all).trans ?_
  rw [windowCells, Outcome.ok_bind, slopeRow]
  dsimp only
  rw [List.map_map]
  rfl

/-- The cells of the rows at hand. -/
theorem exists_cells (h : r.MonthlyContent rows) :
    ∃ found computed, SlopeRow.compute ℚ r.level r.type.measured rows = .ok found ∧
      found.mapM (cells r.level) = .ok computed ∧
      computed.Perm (tableCells (roundRat SlopeRow.precision) r rows) := by
  have perm := (placesOf_perm_locations r.level.keyColumns rows).map fun location =>
    slopeRow r.level r.type.measured location (windowOf r.level.keyColumns rows location)
  have valued : ((locations r.level.keyColumns rows).map fun location => slopeRow r.level
      r.type.measured location (windowOf r.level.keyColumns rows location)).mapM (cells r.level) =
      .ok (tableCells (roundRat SlopeRow.precision) r rows) := by
    rw [List.mapM_map]
    refine Outcome.mapM_eq_ok_map fun location hlocation => ?_
    obtain ⟨row, -, rfl⟩ := mem_locations.1 hlocation
    exact cells_slopeRow r row _
  obtain ⟨computed, hcomputed, perm'⟩ := Outcome.exists_mapM_of_perm perm valued
  exact ⟨_, computed, compute_eq (monthly_of_content h), hcomputed, perm'⟩

end AtHand

end SlopeWindow

end PropertyMarket
