import Mathlib.Data.Int.Interval
import PropertyMarket.Proofs.BestLine
import PropertyMarket.Proofs.SlopeRows

/-!
# Slopes within the latest year of each location

What is said of a location is said of its window: the rows of its own latest calendar year. It is
neither the latest year of all locations nor a number of months that ends with the latest one. So
rows of earlier years and rows of other locations do not matter, and neither does the order of the
rows; and the slope of a field is that of the best line through the points of the window, if these
are of two months at least.

## Main definitions

* `SlopeWindow.IsAt` — the row of a location
* `SlopeWindow.IsSlope` — the slope of the best line of a field within a window
* `SlopeWindow.Shows` — what a row says of a window
* `SlopeWindow.Describes` — a row that shows the latest window of a location

## Main results

* `SlopeWindow.isSlope_regressionSlope` — the slope that is computed is that of the best line
* `SlopeWindow.windowOf_perm` — a window only depends on the rows of a location from some year on
* `SlopeWindow.compute_windows` — one row for each location, with its latest window

## Implementation notes

A window is a filter of the rows: of one location, and of the greatest year that the location has.
Every independence that is claimed is a statement about this filter. The rows of other locations do
not pass it; rows of earlier years do not pass it as long as there is one of a later year; and the
order of the rows only permutes what passes it, which neither sums nor extremes notice.

The slope is that of the points of the window in the sense of `IsBestLine`, so that nothing here
depends on the formula by which it is computed.
-/

namespace PropertyMarket

/-! ### Greatest and least integers

The last and the first month of a window, and the latest year of a location, are all found by one
function that goes through a list. What it finds are the greatest and the least element of the list
as a set. -/

theorem outermost_greatest {xs : List ℤ} (h : xs ≠ []) :
    IsGreatest {x | x ∈ xs} (outermost true xs) := by
  cases xs with
  | nil => exact absurd rfl h
  | cons y ys =>
    have greatest : (y :: ys).max? = some (outermost true (y :: ys)) := List.max?_cons'
    obtain ⟨mem, least⟩ := List.max?_eq_some_iff.1 greatest
    exact ⟨mem, fun x hx => least x hx⟩

theorem outermost_least {xs : List ℤ} (h : xs ≠ []) :
    IsLeast {x | x ∈ xs} (outermost false xs) := by
  cases xs with
  | nil => exact absurd rfl h
  | cons y ys =>
    have least : (y :: ys).min? = some (outermost false (y :: ys)) := List.min?_cons'
    obtain ⟨mem, greatest⟩ := List.min?_eq_some_iff.1 least
    exact ⟨mem, fun x hx => greatest x hx⟩

/-- The greatest and the least of some integers do not depend on their order. -/
theorem outermost_eq_of_perm {xs ys : List ℤ} (greatest : Bool) (perm : xs.Perm ys) :
    outermost greatest xs = outermost greatest ys := by
  obtain rfl | nonempty := eq_or_ne xs []
  · rw [perm.nil_eq]
  · have same : {x | x ∈ xs} = {x | x ∈ ys} := Set.ext fun _ => perm.mem_iff
    have nonempty' : ys ≠ [] := fun h => nonempty (h ▸ perm).eq_nil
    cases greatest with
    | true => exact (outermost_greatest nonempty).unique (same ▸ outermost_greatest nonempty')
    | false => exact (outermost_least nonempty).unique (same ▸ outermost_least nonempty')

namespace SlopeWindow

/-! ### What a row says

The row of a location says which year its window is of, how many rows the window has, which months
it reaches from and to, and one slope for each field. Each of these is described in terms of the
rows of the window. -/

/-- The row of a location. A row of a commune has no section, and a row of a section has both. -/
def IsAt (level : Level) (location : List String) (s : SlopeRow (Option ℚ)) : Prop :=
  match level with
  | .commune => [s.inseeCode] = location.map .text ∧ s.cadastral = .null
  | .cadastral => [s.inseeCode, s.cadastral] = location.map .text

/-- The months of the rows that have a number in a field. -/
def monthsWith (name : String) (window : List Record) : List ℤ :=
  (window.filter fun row => (row.getD name).rational?.isSome).map (·.int "month")

/-- The slope of a field within a window: none for less than two months with a number, and that of
the best line in the rounding of slopes otherwise. -/
structure IsSlope (name : String) (window : List Record) (slope : Option ℚ) : Prop where
  none_iff : slope = none ↔ (monthsWith name window).toFinset.card < 2
  best : ∀ s ∈ slope, ∃ intercept b, IsBestLine (points name window) intercept b ∧
    s = roundRat SlopeRow.precision b

/-- What a row says of the window of a year: its months and its slopes. The months are the first and
the last one of the window and how many rows it has. -/
structure Shows (fields : List String) (latest : ℤ) (window : List Record)
    (s : SlopeRow (Option ℚ)) : Prop where
  year : s.year = .int latest
  startYear : s.windowStartYear = .int latest
  months : s.windowMonths = .int window.length
  month : ∃ m, s.month = .int m ∧ IsGreatest {m | ∃ row ∈ window, row.int "month" = m} m
  startMonth : ∃ m, s.windowStartMonth = .int m ∧
    IsLeast {m | ∃ row ∈ window, row.int "month" = m} m
  names : s.slopes.map Prod.fst = fields
  slopes : ∀ slope ∈ s.slopes, IsSlope slope.1 window slope.2

/-- A row that shows the rows of the latest year of a location. The latest year is that of the
location itself, not of all rows. -/
def Describes (level : Level) (fields : List String) (rows : List Record) (location : List String)
    (s : SlopeRow (Option ℚ)) : Prop :=
  IsAt level location s ∧ ∃ latest : ℤ,
    IsGreatest {y | ∃ row ∈ rows, row.texts level.keyColumns = location ∧ row.year = y} latest ∧
    Shows fields latest
      (rows.filter fun row => row.texts level.keyColumns = location ∧ row.year = latest) s

section AtHand

variable {level : Level} {fields : List String} {rows others window : List Record}
  {row : Record} {location : List String} {name : String}

theorem latest_greatest (h : rows ≠ []) :
    IsGreatest {y | ∃ row ∈ rows, row.year = y} (latest rows) := by
  have greatest := outermost_greatest (mt List.map_eq_nil_iff.1 h : rows.map Record.year ≠ [])
  rw [latest]
  simpa only [List.mem_map] using greatest

theorem windowOf_eq (columns : List String) (rows : List Record) (location : List String) :
    windowOf columns rows location = rows.filter fun row =>
      row.texts columns = location ∧ row.year = latest (rowsOf columns rows location) := by
  rw [windowOf, window, rowsOf, List.filter_filter]
  refine List.filter_congr fun row _ => ?_
  rw [Bool.and_comm, Bool.decide_and]

/-- The rows of a window that have a number in a field. -/
theorem map_fst_points (name : String) (window : List Record) :
    (points name window).map Prod.fst =
      (window.filter fun row => (row.getD name).rational?.isSome).map
        fun row => (row.ordinal : ℚ) := by
  induction window with
  | nil => rfl
  | cons row window ih =>
    rw [points] at ih ⊢
    cases found : (row.getD name).rational? with
    | none => simpa [found] using ih
    | some y => simpa [found] using ih

/-- Points of one year are of less than two months exactly if they do not differ in time, and then
there is no best line. This is how a missing slope becomes a matter of counting months. -/
theorem card_monthsWith_lt_two_iff {year : ℤ} (within : ∀ row ∈ window, row.year = year) :
    (monthsWith name window).toFinset.card < 2 ↔
      ∀ p ∈ points name window, ∀ q ∈ points name window, p.1 = q.1 := by
  have times : (∀ p ∈ points name window, ∀ q ∈ points name window, p.1 = q.1) ↔
      ∀ x ∈ (points name window).map Prod.fst, ∀ y ∈ (points name window).map Prod.fst, x = y := by
    simp only [List.forall_mem_map]
  rw [times, map_fst_points, Nat.lt_succ_iff, Finset.card_le_one]
  simp only [List.mem_toFinset, monthsWith, List.forall_mem_map]
  refine forall₂_congr fun row hrow => forall₂_congr fun other hother => ?_
  rw [Int.cast_inj, Record.ordinal, Record.ordinal, within row (List.mem_of_mem_filter hrow),
    within other (List.mem_of_mem_filter hother), add_right_inj]

/-- The slope of a field within a window of one year, as the formula with sums over its points gives
it. -/
theorem isSlope_regressionSlope {year : ℤ} (within : ∀ row ∈ window, row.year = year)
    (name : String) : IsSlope name window
      ((regressionSlope (points name window)).map (roundRat SlopeRow.precision)) where
  none_iff := by
    rw [Option.map_eq_none_iff, regressionSlope_eq_none_iff, card_monthsWith_lt_two_iff within]
  best s hs := by
    obtain ⟨b, hb, rfl⟩ := Option.map_eq_some_iff.1 hs
    exact ⟨_, b, isBestLine_of_regressionSlope hb, rfl⟩

/-- The row of a location describes it. -/
theorem describes_slopeRow (here : ∃ row ∈ rows, row.texts level.keyColumns = location) :
    Describes level fields rows location
      (slopeRow level fields location (windowOf level.keyColumns rows location)) := by
  have nonempty : rowsOf level.keyColumns rows location ≠ [] := by
    obtain ⟨row, hrow, there⟩ := here
    exact List.ne_nil_of_mem (List.mem_filter.2 ⟨hrow, decide_eq_true there⟩)
  have window_nonempty : windowOf level.keyColumns rows location ≠ [] := window_ne_nil nonempty
  have months : (windowOf level.keyColumns rows location).map (·.int "month") ≠ [] :=
    mt List.map_eq_nil_iff.1 window_nonempty
  have year : latest (windowOf level.keyColumns rows location) =
      latest (rowsOf level.keyColumns rows location) := latest_window nonempty
  refine ⟨?_, latest (rowsOf level.keyColumns rows location), ?_, ?_⟩
  · obtain ⟨row, -, rfl⟩ := here
    cases level with
    | commune => exact ⟨rfl, rfl⟩
    | cadastral => rfl
  · simpa [rowsOf, and_assoc] using latest_greatest nonempty
  · rw [← windowOf_eq]
    exact {
      year := congrArg Value.int year
      startYear := congrArg Value.int year
      months := rfl
      month := ⟨_, rfl, by simpa using outermost_greatest months⟩
      startMonth := ⟨_, rfl, by simpa using outermost_least months⟩
      names := by
        rw [slopeRow, List.map_map]
        exact List.map_id fields
      slopes := by
        simp only [slopeRow, List.forall_mem_map]
        exact fun name _ => isSlope_regressionSlope (fun row => year_of_mem_window) name }

/-! ### What does not matter

The row of a location is a function of its window, and the window of its rows from any year on that
it reaches. So rows that agree from such a year on give the same row, however different they are
before it, and whatever other locations there are. -/

/-- What is said of a window does not depend on the order of its rows. -/
theorem slopeRow_eq_of_perm {others : List Record} (perm : others.Perm window) :
    slopeRow level fields location others = slopeRow level fields location window := by
  have years : latest others = latest window := outermost_eq_of_perm true (perm.map _)
  have months (greatest : Bool) : outermost greatest (others.map (·.int "month")) =
      outermost greatest (window.map (·.int "month")) := outermost_eq_of_perm greatest (perm.map _)
  have slopes (name : String) : regressionSlope (points name others) =
      regressionSlope (points name window) := regressionSlope_eq_of_perm (perm.filterMap _)
  simp only [slopeRow, years, months, slopes, perm.length_eq]

/-- The rows of a location from some year on. -/
def rowsFrom (columns : List String) (rows : List Record) (location : List String) (y : ℤ) :
    List Record :=
  rows.filter fun row => row.texts columns = location ∧ y ≤ row.year

/-- If there are any, they hold the latest year and the window of the location. -/
theorem windowOf_eq_filter {columns : List String} {y : ℤ}
    (reached : rowsFrom columns rows location y ≠ []) :
    IsGreatest {z | ∃ row ∈ rowsFrom columns rows location y, row.year = z}
        (latest (rowsOf columns rows location)) ∧
      windowOf columns rows location = (rowsFrom columns rows location y).filter
        fun row => row.year = latest (rowsOf columns rows location) := by
  obtain ⟨first, hfirst⟩ := List.exists_mem_of_ne_nil _ reached
  obtain ⟨hrow, there⟩ := List.mem_filter.1 hfirst
  obtain ⟨here, late⟩ := of_decide_eq_true there
  have at_location {row : Record} : row ∈ rowsOf columns rows location ↔
      row ∈ rows ∧ row.texts columns = location := by
    rw [rowsOf, List.mem_filter, decide_eq_true_iff]
  have from_year {row : Record} : row ∈ rowsFrom columns rows location y ↔
      row ∈ rowsOf columns rows location ∧ y ≤ row.year := by
    rw [at_location, rowsFrom, List.mem_filter, decide_eq_true_iff, and_assoc]
  obtain ⟨⟨last, hlast, year⟩, greatest⟩ :=
    latest_greatest (List.ne_nil_of_mem (at_location.2 ⟨hrow, here⟩))
  have enough : y ≤ latest (rowsOf columns rows location) :=
    late.trans (greatest ⟨first, at_location.2 ⟨hrow, here⟩, rfl⟩)
  refine ⟨⟨⟨last, from_year.2 ⟨hlast, year ▸ enough⟩, year⟩, ?_⟩, ?_⟩
  · rintro _ ⟨row, hrow, rfl⟩
    exact greatest ⟨row, (from_year.1 hrow).1, rfl⟩
  · rw [windowOf_eq, rowsFrom, List.filter_filter]
    refine List.filter_congr fun row _ => ?_
    rw [← Bool.decide_and, decide_eq_decide]
    constructor
    · rintro ⟨here, year⟩
      exact ⟨year, here, year ▸ enough⟩
    · rintro ⟨year, here, -⟩
      exact ⟨here, year⟩

/-- The window of a location only depends on its rows from some year on, if there are any. The year
need not be the latest one. -/
theorem windowOf_perm {columns : List String} {y : ℤ}
    (reached : rowsFrom columns rows location y ≠ [])
    (agree : (rowsFrom columns others location y).Perm (rowsFrom columns rows location y)) :
    (windowOf columns others location).Perm (windowOf columns rows location) := by
  have reached' : rowsFrom columns others location y ≠ [] := fun none =>
    reached (none ▸ agree).symm.eq_nil
  obtain ⟨greatest, window⟩ := windowOf_eq_filter reached
  obtain ⟨greatest', window'⟩ := windowOf_eq_filter reached'
  have same : {z | ∃ row ∈ rowsFrom columns others location y, row.year = z} =
      {z | ∃ row ∈ rowsFrom columns rows location y, row.year = z} :=
    Set.ext fun z => exists_congr fun row => and_congr_left fun _ => agree.mem_iff
  rw [same] at greatest'
  rw [window, window', greatest'.unique greatest]
  exact agree.filter _

theorem isAt_inj {s : SlopeRow (Option ℚ)} {other : List String} (h : IsAt level location s)
    (h' : IsAt level other s) : location = other := by
  have injective : Function.Injective (List.map Value.text) :=
    List.map_injective_iff.2 fun s t => Value.text.inj
  cases level with
  | commune => exact injective (h.1.symm.trans h'.1)
  | cadastral => exact injective (Eq.trans (Eq.symm h) h')

/-- A row of an output is that of its location. -/
theorem mem_compute_iff (h : Monthly level fields rows) {found : List (SlopeRow (Option ℚ))}
    (computed : SlopeRow.compute ℚ level fields rows = .ok found) {s : SlopeRow (Option ℚ)}
    (there : IsAt level location s) :
    s ∈ found ↔ (∃ row ∈ rows, row.texts level.keyColumns = location) ∧
      slopeRow level fields location (windowOf level.keyColumns rows location) = s := by
  rw [compute_eq h] at computed
  rw [← Except.ok.inj computed, List.mem_map]
  constructor
  · rintro ⟨other, hother, rfl⟩
    have here := RowKey.mem_placesOf.1 hother
    obtain ⟨at_other, -⟩ : Describes level fields rows other _ := describes_slopeRow here
    obtain rfl := isAt_inj there at_other
    exact ⟨here, rfl⟩
  · rintro ⟨here, rfl⟩
    exact ⟨location, RowKey.mem_placesOf.2 here, rfl⟩

/-- The order of the rows does not matter. -/
theorem compute_eq_of_perm (h : Monthly level fields rows) (perm : others.Perm rows) :
    SlopeRow.compute ℚ level fields others = SlopeRow.compute ℚ level fields rows := by
  have h' : Monthly level fields others :=
    ⟨⟨fun row hrow => h.typed.hasText row (perm.subset hrow),
      fun row hrow => h.typed.hasInt row (perm.subset hrow)⟩,
      fun row hrow => h.valued row (perm.subset hrow)⟩
  rw [compute_eq h', compute_eq h, RowKey.placesOf_eq_of_perm perm]
  refine congrArg Except.ok (List.map_congr_left fun location _ => slopeRow_eq_of_perm ?_)
  have group : (rowsOf level.keyColumns others location).Perm
      (rowsOf level.keyColumns rows location) := perm.filter _
  have year : latest (rowsOf level.keyColumns others location) =
      latest (rowsOf level.keyColumns rows location) := outermost_eq_of_perm true (group.map _)
  rw [windowOf_eq, windowOf_eq, year]
  exact perm.filter _

/-- Rows of earlier years and of other locations do not matter. -/
theorem mem_compute_congr (h : Monthly level fields rows) (h' : Monthly level fields others) {y : ℤ}
    (reached : rowsFrom level.keyColumns rows location y ≠ [])
    (agree : (rowsFrom level.keyColumns others location y).Perm
      (rowsFrom level.keyColumns rows location y))
    {found found' : List (SlopeRow (Option ℚ))}
    (computed : SlopeRow.compute ℚ level fields rows = .ok found)
    (computed' : SlopeRow.compute ℚ level fields others = .ok found') {s : SlopeRow (Option ℚ)}
    (there : IsAt level location s) : s ∈ found' ↔ s ∈ found := by
  have occurs {rows : List Record} (reached : rowsFrom level.keyColumns rows location y ≠ []) :
      ∃ row ∈ rows, row.texts level.keyColumns = location := by
    obtain ⟨row, hrow⟩ := List.exists_mem_of_ne_nil _ reached
    obtain ⟨hrow, here⟩ := List.mem_filter.1 hrow
    exact ⟨row, hrow, (of_decide_eq_true here).1⟩
  have reached' : rowsFrom level.keyColumns others location y ≠ [] := fun none =>
    reached (none ▸ agree).symm.eq_nil
  rw [mem_compute_iff h' computed' there, mem_compute_iff h computed there,
    slopeRow_eq_of_perm (windowOf_perm reached agree)]
  exact and_congr_left fun _ => iff_of_true (occurs reached') (occurs reached)

/-! ### Months of a year

A rollup by months has one row for each location and month, and its months are those of a calendar.
Then a window cannot have more rows than a year has months. -/

/-- No two rows are of one location and month, and months are those of a year. -/
structure MonthsOnce (columns : List String) (rows : List Record) : Prop where
  once : rows.Pairwise fun a b => ¬(a.texts columns = b.texts columns ∧ a.year = b.year ∧
    a.int "month" = b.int "month")
  month : ∀ row ∈ rows, 1 ≤ row.int "month" ∧ row.int "month" ≤ 12

/-- A window then has twelve rows at most. -/
theorem length_windowOf_le {columns : List String} (h : MonthsOnce columns rows) :
    (windowOf columns rows location).length ≤ 12 := by
  have different : ((windowOf columns rows location).map (·.int "month")).Nodup := by
    rw [List.Nodup, List.pairwise_map, windowOf_eq]
    refine (h.once.filter _).imp_of_mem fun ha hb once same => once ?_
    obtain ⟨texts, year⟩ := of_decide_eq_true (List.mem_filter.1 ha).2
    obtain ⟨texts', year'⟩ := of_decide_eq_true (List.mem_filter.1 hb).2
    exact ⟨texts.trans texts'.symm, year.trans year'.symm, same⟩
  have within : ((windowOf columns rows location).map (·.int "month")).toFinset ⊆
      Finset.Icc (1 : ℤ) 12 := by
    intro m hm
    obtain ⟨row, hrow, rfl⟩ := List.mem_map.1 (List.mem_toFinset.1 hm)
    exact Finset.mem_Icc.2 (h.month row (of_mem_windowOf hrow).1)
  have few := Finset.card_le_card within
  rw [List.toFinset_card_of_nodup different, List.length_map, Int.card_Icc] at few
  exact few

/-- A window of one row has no slopes. -/
theorem slopes_eq_none {year : ℤ} (within : ∀ row ∈ window, row.year = year)
    (single : window.length = 1) :
    ∀ slope ∈ (slopeRow level fields location window).slopes, slope.2 = none := by
  simp only [slopeRow, List.forall_mem_map]
  intro name _
  rw [(isSlope_regressionSlope within name).none_iff, Nat.lt_succ_iff, ← single]
  exact (List.toFinset_card_le _).trans ((List.length_map _).le.trans (List.length_filter_le _ _))

/-- **The slopes of monthly rows are those of the latest calendar year of each location.**

There is one row for each location, in their order. If no two rows are of one location and month,
a window has one to twelve rows, and no slopes if it has one. The order of the rows does not matter,
and the row of a location does not change with the rows of other locations or of its earlier years:
it is the same for any rows that agree, from a year on that the location reaches. -/
theorem compute_windows (h : Monthly level fields rows) :
    (∃ found, SlopeRow.compute ℚ level fields rows = .ok found ∧
      (∃ locations : List (List String), locations.Pairwise (· < ·) ∧
        (∀ location, location ∈ locations ↔
          ∃ row ∈ rows, row.texts level.keyColumns = location) ∧
        List.Forall₂ (Describes level fields rows) locations found) ∧
      (MonthsOnce level.keyColumns rows → ∀ s ∈ found, ∃ n : ℤ, s.windowMonths = .int n ∧
        1 ≤ n ∧ n ≤ 12 ∧ (n = 1 → ∀ slope ∈ s.slopes, slope.2 = none))) ∧
    (∀ shuffled : List Record, shuffled.Perm rows →
      SlopeRow.compute ℚ level fields shuffled = SlopeRow.compute ℚ level fields rows) ∧
    (∀ others, Monthly level fields others → ∀ location y,
      rowsFrom level.keyColumns rows location y ≠ [] →
      (rowsFrom level.keyColumns others location y).Perm
        (rowsFrom level.keyColumns rows location y) →
      ∀ found found', SlopeRow.compute ℚ level fields rows = .ok found →
        SlopeRow.compute ℚ level fields others = .ok found' →
        ∀ s, IsAt level location s → (s ∈ found' ↔ s ∈ found)) := by
  refine ⟨⟨_, compute_eq h, ⟨_, RowKey.pairwise_placesOf _ rows, fun _ => RowKey.mem_placesOf, ?_⟩,
    fun once => ?_⟩, fun shuffled perm => compute_eq_of_perm h perm, ?_⟩
  · rw [List.forall₂_map_right_iff, List.forall₂_same]
    exact fun location hlocation => describes_slopeRow (RowKey.mem_placesOf.1 hlocation)
  · simp only [List.forall_mem_map]
    intro location hlocation
    have nonempty : windowOf level.keyColumns rows location ≠ [] :=
      windowOf_ne_nil (mem_locations.2 (RowKey.mem_placesOf.1 hlocation))
    have some_row := List.length_pos_of_ne_nil nonempty
    have few : (windowOf level.keyColumns rows location).length ≤ 12 := length_windowOf_le once
    refine ⟨_, rfl, by omega, by omega, fun single => ?_⟩
    exact slopes_eq_none (fun row hrow => year_of_mem_window hrow) (by omega)
  · exact fun others h' location y reached agree found found' computed computed' s there =>
      mem_compute_congr h h' reached agree computed computed' there

end AtHand

/-- Monthly prices of the sections of a commune. -/
def priceRow (price : String × ℤ × ℤ × Option ℤ) : Record :=
  [("insee_code", .text "75112"), ("section", .text price.1), ("year", .int price.2.1),
    ("month", .int price.2.2.1), ("avg_price", price.2.2.2.elim .null .int)]

theorem monthly_priceRow (prices : List (String × ℤ × ℤ × Option ℤ)) :
    Monthly .cadastral ["avg_price"] (prices.map priceRow) where
  typed :=
    { hasText := by
        simp only [List.forall_mem_map]
        intro _ _ name hname
        obtain rfl | rfl := List.mem_pair.1 hname <;> exact ⟨_, rfl⟩
      hasInt := by
        simp only [List.forall_mem_map]
        intro _ _ name hname
        obtain rfl | rfl := List.mem_pair.1 hname <;> exact ⟨_, rfl⟩ }
  valued := by
    simp only [List.forall_mem_map, List.forall_mem_singleton]
    rintro ⟨_, _, _, _ | n⟩ _
    · exact .inl rfl
    · exact .inr (by rfl)

/-- Two sections, of which one has a month without sales and a price of an earlier year. Their
latest years are different. -/
def twoSections : List Record :=
  [("AB", 2023, 4, some 10300), ("CD", 2021, 12, some 7000), ("AB", 2022, 3, some 9000),
    ("AB", 2023, 1, some 10000), ("AB", 2023, 3, none)].map priceRow

/-- The latest year of the first section. -/
def latestSection : List Record :=
  [("AB", 2023, 1, some 10000), ("AB", 2023, 3, none), ("AB", 2023, 4, some 10300)].map priceRow

theorem compute_windows_twoSections :
    Monthly .cadastral ["avg_price"] twoSections ∧
      (∃ found, SlopeRow.compute ℚ .cadastral ["avg_price"] twoSections = .ok found ∧
        (∃ s ∈ found, Describes .cadastral ["avg_price"] twoSections ["75112", "AB"] s) ∧
        ∀ s ∈ found, ∃ n : ℤ, s.windowMonths = .int n ∧ 1 ≤ n ∧ n ≤ 12 ∧
          (n = 1 → ∀ slope ∈ s.slopes, slope.2 = none)) ∧
      SlopeRow.compute ℚ .cadastral ["avg_price"] twoSections.reverse =
        SlopeRow.compute ℚ .cadastral ["avg_price"] twoSections ∧
      ∀ found found', SlopeRow.compute ℚ .cadastral ["avg_price"] twoSections = .ok found →
        SlopeRow.compute ℚ .cadastral ["avg_price"] latestSection = .ok found' →
        ∀ s, IsAt .cadastral ["75112", "AB"] s → (s ∈ found' ↔ s ∈ found) := by
  have monthly : Monthly .cadastral ["avg_price"] twoSections := monthly_priceRow _
  obtain ⟨⟨found, computed, ⟨locations, -, occurs, described⟩, once⟩, shuffled, others⟩ :=
    compute_windows monthly
  have first : ["75112", "AB"] ∈ locations :=
    (occurs _).2 ⟨_, List.mem_map_of_mem List.mem_cons_self, rfl⟩
  have kept : rowsFrom Level.cadastral.keyColumns twoSections ["75112", "AB"] 2023 =
      [("AB", 2023, 4, some 10300), ("AB", 2023, 1, some 10000), ("AB", 2023, 3, none)].map
        priceRow := by rfl
  have all : rowsFrom Level.cadastral.keyColumns latestSection ["75112", "AB"] 2023 =
      latestSection := by rfl
  refine ⟨monthly, ⟨found, computed, ?_, once ⟨by decide +kernel, by decide +kernel⟩⟩,
    shuffled _ (List.reverse_perm _), ?_⟩
  · obtain ⟨i, hi, here⟩ := List.getElem_of_mem first
    have describes := described.get hi (described.length_eq ▸ hi)
    rw [List.get_eq_getElem, here] at describes
    exact ⟨_, List.get_mem _ _, describes⟩
  · refine others latestSection (monthly_priceRow _) ["75112", "AB"] 2023 (kept ▸ by simp) ?_
    rw [all, kept]
    exact List.Perm.map priceRow (by decide)

end SlopeWindow

end PropertyMarket
