import PropertyMarket.Delta
import PropertyMarket.Proofs.KeyOrder

/-!
# Locations and years

The comparisons of yearly rows are made location by location and year by year: a row is known by the
place it has there, of several rows of one place the last one counts, and what it is compared with
is the row that counts in the place before, that of the same location one year earlier. So the
comparisons are the flat rows of the places that occur together with the place before, in the order
of the places.

## Main definitions

* `YearlyComparison.place`, `YearlyComparison.before` — a location and year, and the year before
* `YearlyComparison.rowOf` — the row that counts
* `YearlyComparison.joined` — the places that occur together with the place before

## Main results

* `YearlyComparison.rows_eq_mapM` — comparisons are the flat rows of these

## Implementation notes

A place is a pair in lexicographic order, and its key is the list of the texts of the location with
the year behind them. That keys stand for places in the sense of `RowKey.Represents` is all that is
used of keys; sorting, looking up and replacing are then operations on places.
-/

namespace PropertyMarket

namespace YearlyComparison

/-- The location and the year of a row. -/
def place (keyColumns : List String) (row : Record) : List String ×ₗ ℤ :=
  toLex (row.texts keyColumns, row.year)

/-- The same location in the year before. -/
def before (p : List String ×ₗ ℤ) : List String ×ₗ ℤ := toLex ((ofLex p).1, (ofLex p).2 - 1)

/-- The locations and years of rows, in their order. -/
def years (keyColumns : List String) (yearly : List Record) : List (List String ×ₗ ℤ) :=
  RowKey.placesOf (place keyColumns) yearly

/-- Those that occur with the year before. They are in order, since the places are. -/
def joined (keyColumns : List String) (yearly : List Record) : List (List String ×ₗ ℤ) :=
  (years keyColumns yearly).filter fun p => before p ∈ years keyColumns yearly

/-- The row that counts for a location and year. Where there is none it is an arbitrary row, which
is never asked for. -/
def rowOf (keyColumns : List String) (yearly : List Record) (p : List String ×ₗ ℤ) : Record :=
  (RowKey.lastAt? (place keyColumns) yearly p).getD default

/-- The flat row of a location and year with the year before. -/
def flatAt (keyColumns fields : List String) (yearly : List Record) (p : List String ×ₗ ℤ) :
    Except Fault Record :=
  flatRow keyColumns ((ofLex p).1.map .text) (.int (ofLex p).2) (.int ((ofLex p).2 - 1)) fields
    (rowOf keyColumns yearly (before p)) (rowOf keyColumns yearly p)

section Places

variable {keyColumns fields : List String} {yearly : List Record} {row : Record}
  {p : List String ×ₗ ℤ}

theorem represents_places (keyColumns : List String) {places : List (List String ×ₗ ℤ)}
    (h : ∀ p ∈ places, ∃ row : Record, row.texts keyColumns = (ofLex p).1) :
    RowKey.Represents RowKey.ofDated places :=
  RowKey.represents_dated (n := keyColumns.length) fun p hp => by
    obtain ⟨row, same⟩ := h p hp
    rw [← same, Record.texts, List.length_map]

theorem represents_map (keyColumns : List String) (yearly : List Record) :
    RowKey.Represents RowKey.ofDated (yearly.map (place keyColumns)) :=
  represents_places keyColumns fun p hp => by
    obtain ⟨row, -, rfl⟩ := List.mem_map.1 hp
    exact ⟨row, rfl⟩

/-- The key of a row stands for its place. -/
theorem key_place (h : Record.Typed keyColumns ["year"] yearly) (hrow : row ∈ yearly) :
    row.key keyColumns ++ [.int row.year] = RowKey.ofDated (place keyColumns row) := by
  rw [h.key_eq hrow]
  rfl

/-- The rows that count, under their keys. Their order is that in which the keys came up, so it is
left open here. -/
theorem exists_byYear (h : Record.Typed keyColumns ["year"] yearly) :
    ∃ entries, byYear keyColumns yearly = .ok entries ∧
      entries.Perm ((years keyColumns yearly).map fun p =>
        (RowKey.ofDated p, rowOf keyColumns yearly p)) := by
  refine ⟨_, Outcome.foldlM_eq_ok_foldl (g := fun entries row =>
    RowKey.update (RowKey.ofDated (place keyColumns row)) (fun _ => row) entries) [] ?_,
    (represents_map keyColumns yearly).foldl_replace_perm⟩
  intro row hrow entries
  have self := (represents_map keyColumns yearly).alike _ (List.mem_map_of_mem hrow) _
    (List.mem_map_of_mem hrow)
  rw [h.ofRow_eq (List.subset_append_left _ _) hrow, Outcome.ok_bind,
    Record.require_eq (h.get?_int hrow (List.mem_singleton_self _)), Outcome.ok_bind]
  change (do
    let key ← RowKey.check (row.key keyColumns ++ [Value.int row.year])
    return RowKey.update key (fun _ => row) entries) = _
  rw [key_place h hrow, self.check_eq]
  rfl

/-- What is compared in a year that occurs, if the year before does; otherwise there is nothing to
compare, which is no fault. -/
theorem compareEntry_of_mem (hp : p ∈ years keyColumns yearly)
    {entries : List (RowKey × Record)}
    (perm : entries.Perm ((years keyColumns yearly).map fun p =>
      (RowKey.ofDated p, rowOf keyColumns yearly p))) :
    compareEntry keyColumns fields entries (RowKey.ofDated p, rowOf keyColumns yearly p) =
      if before p ∈ years keyColumns yearly then (flatAt keyColumns fields yearly p).map some
      else .ok none := by
  have earlier : yearBefore (.int (ofLex p).2) = .ok (.int ((ofLex p).2 - 1)) := rfl
  have represents : RowKey.Represents RowKey.ofDated (before p :: years keyColumns yearly) := by
    refine represents_places keyColumns fun q hq => ?_
    obtain rfl | hq := List.mem_cons.1 hq
    · obtain ⟨row, -, here⟩ := RowKey.mem_placesOf.1 hp
      exact ⟨row, congrArg (fun p => (ofLex p).1) here⟩
    · obtain ⟨row, -, here⟩ := RowKey.mem_placesOf.1 hq
      exact ⟨row, congrArg (fun p => (ofLex p).1) here⟩
  have found := represents.find?_eq_of_perm perm
  have key : RowKey.ofDated (before p) = (ofLex p).1.map .text ++ [.int ((ofLex p).2 - 1)] := rfl
  rw [compareEntry, RowKey.ofDated, List.dropLast_concat, List.getLast?_concat, Option.getD_some,
    earlier, Outcome.ok_bind]
  dsimp only
  rw [← key, found]
  by_cases both : before p ∈ years keyColumns yearly
  · rw [if_pos both, if_pos both]
    rfl
  · rw [if_neg both, if_neg both]
    rfl

/-- The comparisons are the flat rows of the years that occur with the year before. As flat rows can
be refused, this is a step along a list that stops at the first fault. -/
theorem rows_eq_mapM (h : Record.Typed keyColumns ["year"] yearly) :
    YearlyComparison.rows keyColumns fields yearly =
      (joined keyColumns yearly).mapM (flatAt keyColumns fields yearly) := by
  obtain ⟨entries, found, perm⟩ := exists_byYear h
  have represents : RowKey.Represents RowKey.ofDated (years keyColumns yearly) :=
    (represents_map keyColumns yearly).subset fun p hp =>
      List.mem_map.2 (RowKey.mem_placesOf.1 hp)
  have sorted := represents.sort_eq_of_perm
    ((RowKey.pairwise_placesOf (place keyColumns) yearly).imp le_of_lt) perm
  rw [YearlyComparison.rows, found, Outcome.ok_bind, sorted, Outcome.ok_bind, List.mapM_map,
    joined]
  exact Outcome.mapM_filterMap_id fun p hp => by
    simp only [Function.comp_apply, compareEntry_of_mem hp perm, decide_eq_true_eq]

section Counts

variable (hp : p ∈ years keyColumns yearly)

include hp

/-- The row that counts is one of its place. -/
theorem rowOf_spec :
    rowOf keyColumns yearly p ∈ yearly ∧ place keyColumns (rowOf keyColumns yearly p) = p := by
  obtain ⟨row, hrow, last, here⟩ := RowKey.exists_lastAt? hp
  rw [rowOf, last, Option.getD_some]
  exact ⟨hrow, here⟩

theorem texts_rowOf : (rowOf keyColumns yearly p).texts keyColumns = (ofLex p).1 :=
  congrArg (fun p => (ofLex p).1) (rowOf_spec hp).2

theorem year_rowOf : (rowOf keyColumns yearly p).year = (ofLex p).2 :=
  congrArg (fun p => (ofLex p).2) (rowOf_spec hp).2

end Counts

theorem mem_years {location : List String} {year : ℤ} :
    toLex (location, year) ∈ years keyColumns yearly ↔
      ∃ row ∈ yearly, row.texts keyColumns = location ∧ row.year = year := by
  rw [years, RowKey.mem_placesOf]
  simp only [place, toLex_inj, Prod.mk.injEq]

theorem mem_joined : p ∈ joined keyColumns yearly ↔
    p ∈ years keyColumns yearly ∧ before p ∈ years keyColumns yearly := by
  rw [joined, List.mem_filter, decide_eq_true_iff]

end Places

end YearlyComparison

end PropertyMarket
