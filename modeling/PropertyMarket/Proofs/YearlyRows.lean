import Mathlib.Data.List.ProdSigma
import PropertyMarket.Proofs.ComparisonColumns
import PropertyMarket.Proofs.Fields
import PropertyMarket.Proofs.Meaning
import PropertyMarket.Proofs.Percent
import PropertyMarket.Proofs.YearlyPlaces

/-!
# Yearly comparisons of rows at hand

Each row of a yearly rollup is compared with that of the same location in the year before, if there
is one. The year before is looked up by its key, and as no two rows have one location and year, what
is found is all there is to be found: the flat rows are those of the pairs of a year with the year
before, one row for each pair.

The row of a pair is written down once for both ways of computing it, as cells, with the changes in
percent left open: they are all that the two may differ in.

## Main definitions

* `Relation.YearlyContent` — rows of integers, one for each location and year
* `YearlyComparison.pairs` — the rows, each with the one that precedes it
* `YearlyComparison.rowCells` — the row of a pair, given how changes in percent are computed
* `YearlyComparison.rowValues` — the flat row of a pair

## Main results

* `YearlyComparison.joined_perm_pairs` — looking up the year before finds all pairs
* `YearlyComparison.exists_rows` — the flat rows are those of the pairs
* `YearlyComparison.cells_rowValues` — and hold the cells of the pairs

## Implementation notes

The integers are moderate, so that no change in percent is out of the range of binary64, where rows
at hand are refused.
-/

namespace PropertyMarket

/-- The quotient of two integers in binary64. -/
theorem Number.div_int {a b : ℤ} (finite : (Number.divInt a b).isFinite) :
    (Number.int a).div (.int b) = .ok (.double (Number.divInt a b)) := by
  simp only [Number.div, Number.join, Number.asInt?, Option.getD_some, Outcome.ok_bind]
  cases found : Number.divInt a b with
  | finite s m e => rfl
  | infinite s =>
    rw [found] at finite
    nomatch finite
  | nan => rfl

/-! ### Rows of integers

The metrics of a yearly rollup are taken as integers or null here, whatever the type of the column.
They are `2 ^ 900` at most, so that neither their differences nor the quotients of these leave the
range of binary64. -/

/-- An integer or null. -/
def Cell.ofInt? (n : Option ℤ) : Cell := n.elim .null .int

@[simp] theorem Cell.ofValue_ofInt? (n : Option ℤ) : ofValue (.ofInt? n) = .ok (ofInt? n) := by
  cases n <;> rfl

namespace Record

/-- The integer in a column, if there is one. -/
def int? (row : Record) (name : String) : Option ℤ :=
  match row.getD name with
  | .int n => some n
  | _ => none

theorem int?_eq {row : Record} {name : String} {n : Option ℤ}
    (h : row.get? name = some (.ofInt? n)) : row.int? name = n := by
  rw [int?, getD_eq h]
  cases n <;> rfl

end Record

/-- What a yearly rollup may hold: one row for each location and year, with integers or nothing in
what is measured. The integers are moderate. -/
structure Relation.YearlyContent (r : Relation) (rows : List Record) : Prop where
  keyed : Record.Keyed r.level.keyColumns ["year"] rows
  measured : ∀ row ∈ rows, ∀ name ∈ r.type.measured, ∃ n : Option ℤ,
    row.get? name = some (.ofInt? n) ∧ ∀ m ∈ n, |m| ≤ 2 ^ 900

namespace Relation.YearlyContent

variable {r : Relation} {rows : List Record} {row : Record}

theorem year_eq (h : r.YearlyContent rows) (hrow : row ∈ rows) :
    row.get? "year" = some (.int row.year) :=
  h.keyed.typed.get?_int hrow (List.mem_singleton_self _)

theorem measured_eq (h : r.YearlyContent rows) (hrow : row ∈ rows) {name : String}
    (hname : name ∈ r.type.measured) :
    row.get? name = some (.ofInt? (row.int? name)) ∧ ∀ n ∈ row.int? name, |n| ≤ 2 ^ 900 := by
  obtain ⟨n, hn, moderate⟩ := h.measured row hrow name hname
  rw [Record.int?_eq hn]
  exact ⟨hn, moderate⟩

end Relation.YearlyContent

namespace YearlyComparison

/-! ### Comparing a year with the year before

The row of a pair in the columns of a statement, with the change in percent as an argument. It is
what both ways of computing it are compared with. -/

/-- What changes between two integers. -/
def change (current base : Option ℤ) : Option ℤ := do return (← current) - (← base)

/-- A change in percent, if there is a base other than zero. How it is rounded is left to an
argument. -/
def percentCell (percent : ℤ → ℤ → ℚ) (current base : Option ℤ) : Cell :=
  match current, base with
  | some c, some b => if b = 0 then .null else .number .double (percent c b)
  | _, _ => .null

/-- The columns of the comparison of one field. -/
def fieldCells (percent : ℤ → ℤ → ℚ) (name : String) (current base : Option ℤ) :
    List (String × Cell) :=
  [(Comparison.Part.base.column name, .ofInt? base),
    (Comparison.Part.current.column name, .ofInt? current),
    (Comparison.Part.delta.column name, .ofInt? (change current base)),
    (Comparison.Part.percent.column name, percentCell percent current base)]

/-- The row of a year and the year before. -/
def rowCells (percent : ℤ → ℤ → ℚ) (r : Relation) (current base : Record) :
    List (String × Cell) :=
  r.level.keyColumns.map (fun k => (k, .text (current.text k))) ++
    [("year", .int current.year), ("base_year", .int base.year)] ++
    r.type.measured.flatMap fun name =>
      fieldCells percent name (current.int? name) (base.int? name)

/-- Is the second row that of the same location in the year before? -/
def precedes (keyColumns : List String) (current base : Record) : Bool :=
  RowKey.same (base.key keyColumns) (current.key keyColumns) &&
    decide (base.year + 1 = current.year)

/-- The years of a rollup, each with the year before. -/
def pairs (r : Relation) (rows : List Record) : List (Record × Record) :=
  (rows ×ˢ rows).filter fun p => precedes r.level.keyColumns p.1 p.2

/-! ### Rows at hand

The flat row of a pair as the program writes it. Its columns have different names, so putting them
into a record one after the other keeps all of them. -/

/-- A change in percent as it is computed of rows at hand. -/
def percentValue (current base : Option ℤ) : Value :=
  match current, base with
  | some c, some b =>
    if b = 0 then .null else .double ((Number.divInt (100 * (c - b)) b).roundPlaces 2)
  | _, _ => .null

/-- The flat columns of the comparison of one field. -/
def fieldValues (name : String) (current base : Option ℤ) : Record :=
  [(Comparison.Part.base.column name, .ofInt? base),
    (Comparison.Part.current.column name, .ofInt? current),
    (Comparison.Part.delta.column name, .ofInt? (change current base)),
    (Comparison.Part.percent.column name, percentValue current base)]

/-- The flat row of a year and the year before. -/
def rowValues (r : Relation) (current base : Record) : Record :=
  r.level.keyColumns.map (fun k => (k, current.getD k)) ++
    [("year", .int current.year), ("base_year", .int base.year)] ++
    r.type.measured.flatMap fun name => fieldValues name (current.int? name) (base.int? name)

theorem difference_ofInt? (current base : Option ℤ) :
    difference (.ofInt? current) (.ofInt? base) = .ok (.ofInt? (change current base)) := by
  cases current <;> cases base <;> rfl

/-- The change in percent from a base other than zero is a quotient of integers, rounded. -/
theorem percentChange_int_eq {current base : ℤ} (hb : base ≠ 0) :
    percentChange (.int current) (.int base) = do
      let change := (Number.int (100 * (current - base))).div (.int base) >>= (·.roundPlaces 2)
      return (← change.mapError Fault.ofArithmetic).toValue := by
  have zero : (Value.int base).same (.int 0) = false := by
    have same : (Value.int base).same (.int 0) = decide (base = 0) := Number.same_int base 0
    rw [same, decide_eq_false hb]
  have scaled : (Number.int 100).mul (.int (current - base)) =
      .ok (.int (100 * (current - base))) := rfl
  have change : (Number.int current).sub (.int base) = .ok (.int (current - base)) := rfl
  have number (n : ℤ) : (Value.int n).requireNumber = .ok (.int n) := rfl
  have kept : (Value.int base).isNull = false ∧ (Value.int current).isNull = false := ⟨rfl, rfl⟩
  rw [percentChange, zero, kept.1, kept.2, if_neg (by decide), number, Outcome.ok_bind, number,
    Outcome.ok_bind, change, Outcome.ok_bind, scaled, Outcome.ok_bind]

theorem percentChange_int {current base : ℤ} (hb : base ≠ 0)
    (finite : (Number.divInt (100 * (current - base)) base).isFinite) :
    percentChange (.int current) (.int base) =
      .ok (.double ((Number.divInt (100 * (current - base)) base).roundPlaces 2)) := by
  rw [percentChange_int_eq hb, Number.div_int finite]
  rfl

theorem percentChange_ofInt? {current base : Option ℤ} (hc : ∀ c ∈ current, |c| ≤ 2 ^ 900)
    (hb : ∀ b ∈ base, |b| ≤ 2 ^ 900) :
    percentChange (.ofInt? current) (.ofInt? base) = .ok (percentValue current base) ∧
      Cell.ofValue (percentValue current base) =
        .ok (percentCell computedPercent current base) := by
  cases base with
  | none => exact ⟨by cases current <;> rfl, by cases current <;> rfl⟩
  | some b =>
    cases current with
    | none =>
      have kept : percentChange .null (.int b) = .ok .null := by
        rw [percentChange]
        simp [Value.isNull]
      exact ⟨kept, rfl⟩
    | some c =>
      by_cases zero : b = 0
      · rw [zero]
        exact ⟨rfl, rfl⟩
      · have difference := abs_sub_le_of_moderate (hc c rfl) (hb b rfl)
        obtain ⟨finite, rounded⟩ := isFinite_computed zero (hb b rfl) difference
        rw [percentValue, if_neg zero, percentCell, if_neg zero, computedPercent]
        exact ⟨percentChange_int zero finite, Cell.ofValue_double rounded⟩

theorem cells_fieldValues {name : String} {current base : Option ℤ}
    (hc : ∀ c ∈ current, |c| ≤ 2 ^ 900) (hb : ∀ b ∈ base, |b| ≤ 2 ^ 900) :
    (fieldValues name current base).cells = .ok (fieldCells computedPercent name current base) := by
  have percent := (percentChange_ofInt? hc hb).2
  rw [Record.cells, fieldValues, List.mapM_cons, List.mapM_cons, List.mapM_cons, List.mapM_cons,
    Cell.ofValue_ofInt?, Cell.ofValue_ofInt?, Cell.ofValue_ofInt?, percent]
  rfl

/-- The names of the columns of a comparison. -/
def columnNames (level : Level) (type : PropertyType) : List String :=
  level.keyColumns ++ ["year", "base_year"] ++
    type.measured.flatMap fun name => Comparison.parts.map fun part => part.column name

theorem names_rowValues (r : Relation) (current base : Record) :
    (rowValues r current base).names = columnNames r.level r.type := by
  rw [rowValues, columnNames, Record.names, List.map_append, List.map_append, List.map_map,
    List.map_flatMap]
  congr 2
  exact List.map_id _

theorem nodup_columnNames (level : Level) (type : PropertyType) :
    (columnNames level type).Nodup := by
  have all : (columnNames .cadastral type).Nodup :=
    Comparison.nodup_columns (by decide) (by decide) (by cases type <;> decide)
  have fewer : level.keyColumns.Sublist Level.cadastral.keyColumns := by
    cases level <;> decide
  exact all.sublist ((fewer.append_right _).append_right _)

section Content

variable {r : Relation} {rows : List Record} {current base : Record}

theorem cells_rowValues (h : r.YearlyContent rows) (hc : current ∈ rows) (hb : base ∈ rows) :
    (rowValues r current base).cells = .ok (rowCells computedPercent r current base) := by
  have keys : Record.cells (r.level.keyColumns.map fun k => (k, current.getD k)) =
      .ok (r.level.keyColumns.map fun k => (k, .text (current.text k))) := by
    rw [Record.cells, List.mapM_map]
    refine Outcome.mapM_eq_ok_map fun k hk => ?_
    rw [Function.comp_apply, Record.getD_eq (h.keyed.typed.get?_text hc hk)]
    rfl
  have years : Record.cells [("year", .int current.year), ("base_year", .int base.year)] =
      .ok [("year", .int current.year), ("base_year", .int base.year)] := rfl
  refine Outcome.mapM_append_eq_ok (Outcome.mapM_append_eq_ok keys years)
    (Outcome.mapM_flatMap_eq_ok fun name hname => ?_)
  exact cells_fieldValues (h.measured_eq hc hname).2 (h.measured_eq hb hname).2

/-- The flat row of two years of a location. -/
theorem flatRow_eq (h : r.YearlyContent rows) (hc : current ∈ rows) (hb : base ∈ rows) :
    flatRow r.level.keyColumns (current.key r.level.keyColumns) (.int current.year)
      (.int base.year) r.type.measured base current = .ok (rowValues r current base) := by
  have fields : r.type.measured.mapM (flatField base current) =
      .ok (r.type.measured.map fun name =>
        fieldValues name (current.int? name) (base.int? name)) := by
    refine Outcome.mapM_eq_ok_map fun name hname => ?_
    obtain ⟨found, moderate⟩ := h.measured_eq hc hname
    obtain ⟨found', moderate'⟩ := h.measured_eq hb hname
    simp only [flatField, Record.getD_eq found, Record.getD_eq found', difference_ofInt?,
      (percentChange_ofInt? moderate moderate').1, Outcome.ok_bind]
    rfl
  have keys : r.level.keyColumns.zip (current.key r.level.keyColumns) =
      r.level.keyColumns.map fun k => (k, current.getD k) := List.map_prod_left_eq_zip.symm
  have nodup : (rowValues r current base).names.Nodup :=
    names_rowValues r current base ▸ nodup_columnNames r.level r.type
  have all : rowValues r current base = (r.level.keyColumns.map fun k => (k, current.getD k)) ++
    [("year", .int current.year), ("base_year", .int base.year)] ++
    (r.type.measured.map fun name =>
      fieldValues name (current.int? name) (base.int? name)).flatten := by
    rw [rowValues, List.flatMap_def]
  rw [all] at nodup
  -- Each of the two earlier parts differs in its names as well, being a part of the whole.
  have before {first second : Record} (h : (first ++ second).names.Nodup) : first.names.Nodup := by
    rw [Record.names, List.map_append] at h
    exact h.of_append_left
  have located : Record.putAll [] _ = _ := Record.putAll_eq_append (before (before nodup))
  have dated := Record.putAll_eq_append (before nodup)
  rw [flatRow, fields, Outcome.ok_bind, keys, located, List.nil_append, dated,
    Record.putAll_eq_append nodup, all]
  rfl

/-- A row precedes another one if it is in the place before. -/
theorem precedes_iff (h : r.YearlyContent rows) (hc : current ∈ rows) (hb : base ∈ rows) :
    precedes r.level.keyColumns current base = true ↔
      place r.level.keyColumns base = before (place r.level.keyColumns current) := by
  rw [precedes, Bool.and_eq_true, h.keyed.typed.same_key hb hc, decide_eq_true_iff,
    decide_eq_true_iff, place, before, toLex_inj, Prod.mk.injEq]
  exact and_congr_right fun _ => by simp only [place, ofLex_toLex]; omega

/-- A row is the only one of its place. -/
theorem rowOf_place (h : r.YearlyContent rows) (hc : current ∈ rows) :
    rowOf r.level.keyColumns rows (place r.level.keyColumns current) = current := by
  have key {row : Record} (hrow : row ∈ rows) : row.key (r.level.keyColumns ++ ["year"]) =
      RowKey.ofDated (place r.level.keyColumns row) := by
    rw [← key_place h.keyed.typed hrow, Record.key, List.map_append, List.map_singleton,
      Record.getD_eq (h.year_eq hrow)]
    rfl
  obtain ⟨mem, here⟩ := rowOf_spec (RowKey.mem_placesOf.2 ⟨current, hc, rfl⟩)
  exact h.keyed.eq_of_key_eq mem hc (by rw [key mem, key hc, here])

/-- The places that occur together with the place before are those of the pairs. Each place has one
row, so a pair of places is a pair of rows. -/
theorem joined_perm_pairs (h : r.YearlyContent rows) :
    ((joined r.level.keyColumns rows).map fun p =>
      (rowOf r.level.keyColumns rows p, rowOf r.level.keyColumns rows (before p))).Perm
      (pairs r rows) := by
  have unique : rows.Nodup := h.keyed.unique.imp fun differ same => differ (congrArg _ same)
  refine (List.perm_ext_iff_of_nodup ?_ ((unique.product unique).filter _)).2 fun q => ?_
  · have places : ((joined r.level.keyColumns rows).map fun p =>
        place r.level.keyColumns (rowOf r.level.keyColumns rows p)) =
        joined r.level.keyColumns rows :=
      (List.map_congr_left fun p hp => (rowOf_spec (mem_joined.1 hp).1).2).trans (List.map_id _)
    refine List.Nodup.of_map (fun q => place r.level.keyColumns q.1) ?_
    rw [List.map_map]
    exact (congrArg List.Nodup places).mpr ((RowKey.nodup_placesOf _ _).filter _)
  · obtain ⟨current, base⟩ := q
    rw [List.mem_filter, List.mem_product, List.mem_map]
    constructor
    · rintro ⟨p, hp, same⟩
      obtain ⟨rfl, rfl⟩ := Prod.mk.inj same
      obtain ⟨now, earlier⟩ := mem_joined.1 hp
      obtain ⟨hc, here⟩ := rowOf_spec now
      obtain ⟨hb, there⟩ := rowOf_spec earlier
      exact ⟨⟨hc, hb⟩, (precedes_iff h hc hb).2 (by rw [here, there])⟩
    · rintro ⟨⟨hc, hb⟩, follows⟩
      have there := (precedes_iff h hc hb).1 follows
      refine ⟨place r.level.keyColumns current, mem_joined.2
        ⟨RowKey.mem_placesOf.2 ⟨current, hc, rfl⟩, RowKey.mem_placesOf.2 ⟨base, hb, there⟩⟩, ?_⟩
      rw [← there, rowOf_place h hc, rowOf_place h hb]

/-- The flat rows of yearly rows: one for each year with the year before, and none of them is
refused. -/
theorem exists_rows (h : r.YearlyContent rows) :
    ∃ flat, YearlyComparison.rows r.level.keyColumns r.type.measured rows = .ok flat ∧
      flat.Perm ((pairs r rows).map fun p => rowValues r p.1 p.2) := by
  have each : (joined r.level.keyColumns rows).mapM
      (flatAt r.level.keyColumns r.type.measured rows) =
      .ok ((joined r.level.keyColumns rows).map fun p => rowValues r
        (rowOf r.level.keyColumns rows p) (rowOf r.level.keyColumns rows (before p))) := by
    refine Outcome.mapM_eq_ok_map fun p hp => ?_
    obtain ⟨now, earlier⟩ := mem_joined.1 hp
    have hc := (rowOf_spec now).1
    have hb := (rowOf_spec earlier).1
    have baseYear : (rowOf r.level.keyColumns rows (before p)).year = (ofLex p).2 - 1 :=
      year_rowOf earlier
    rw [flatAt, ← texts_rowOf now, ← h.keyed.typed.key_eq hc, ← baseYear, ← year_rowOf now]
    exact flatRow_eq h hc hb
  refine ⟨_, (rows_eq_mapM h.keyed.typed).trans each, ?_⟩
  have perm := (joined_perm_pairs h).map fun q => rowValues r q.1 q.2
  rw [List.map_map] at perm
  exact perm

end Content

end YearlyComparison

end PropertyMarket
