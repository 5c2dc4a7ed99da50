import PropertyMarket.Proofs.YearlyRows

/-!
# Yearly comparisons by the store

The store joins a yearly rollup with itself. The conditions of the join hold of a year and the year
before, so its rows are those of the same pairs that are found at hand, and term by term they hold
the same cells: null is passed on, there is no change in percent without a base or from a base of
zero, and differences are those of integers. Only the changes in percent are rounded differently,
by the store from the exact quotient and away from zero. So the two agree wherever no change is
halfway between two hundredths, and do not agree on an eighth of a percent.

## Main definitions

* `YearlyComparison.joinEnv` — what the two sources hold for a pair
* `YearlyComparison.Clear` — a change that both round to the same hundredths

## Main results

* `YearlyComparison.rows_joinStatement` — the rows of the statement are those of the pairs
* `YearlyComparison.comparison_denotes` — the rows of the statement and those at hand

## Implementation notes

The rollup is stored as it is at hand: its integers are integers, also in a column that could hold
others, and the arithmetic of the store is exact until a change is rounded.

The conditions of the join are equalities of texts and of a year with another year and one. On rows
with keys of texts and integers they always have a truth value, so the join is a filter of all pairs
by a decidable condition. The terms are evaluated from the inside out, and null is followed through
each of them.
-/

namespace PropertyMarket

namespace YearlyComparison

variable {d : Dialect} {r : Relation} {rows : List Record} {current base : Record}

/-- What the columns of the two sources of a comparison hold. -/
def joinEnv (current base : Record) : Env :=
  (Env.empty.extend "current" current.stored).extend "base" base.stored

theorem joinEnv_base (current base : Record) : joinEnv current base "base" = base.stored :=
  Env.extend_self _ _ _

theorem joinEnv_current (current base : Record) : joinEnv current base "current" = current.stored :=
  (Env.extend_of_ne _ _ (by decide)).trans (Env.extend_self _ _ _)

/-! ### Terms

A comparison of one field has four terms: both values, their difference, and the change in percent
behind a guard. The guard is true without a base and for a base of zero, where the term is null and
the division is not reached. -/

/-- The dialect gives the nearest binary64 number. -/
def Binary (d : Dialect) : Prop := ∀ x, d.toDouble x = (Double.nearest x).toRat?

section Terms

variable {env : Env} {c b : Option ℤ} {s t : Term}

theorem cell_sub (hs : s.cell d [env] = .ok (.ofInt? c)) (ht : t.cell d [env] = .ok (.ofInt? b)) :
    (Term.arithmetic .sub s t).cell d [env] = .ok (.ofInt? (change c b)) := by
  rw [Term.cell_arithmetic .sub hs ht]
  cases c with
  | none => cases b <;> rfl
  | some c =>
    cases b with
    | none => rfl
    | some b => exact d.arithmetic_sub_int c b

/-- The change in percent of two integers, exactly and before it is rounded. -/
theorem cell_quotient {c b : ℤ} (hb : b ≠ 0) (hbase : s.cell d [env] = .ok (.int b))
    (hdifference : t.cell d [env] = .ok (.int (c - b))) :
    (Term.arithmetic .div (.arithmetic .mul (.cast t .number) (.bound (.int 100)))
      (.cast (.cast s .number) .number)).cell d [env] =
      .ok (.number .exact (percentOf c b)) := by
  have hundred : (Term.bound (.int 100)).cell d [env] = .ok (.int 100) := rfl
  have scaled : (Term.arithmetic .mul (.cast t .number) (.bound (.int 100))).cell d [env] =
      .ok (.number .exact (((c - b : ℤ) : ℚ) * (100 : ℤ))) :=
    Term.cell_arithmetic .mul (Term.cell_cast .number hdifference) hundred
  have divisor : (Term.cast (.cast s .number) .number).cell d [env] = .ok (.number .exact b) :=
    Term.cell_cast .number (Term.cell_cast .number hbase)
  have quotient : ((c - b : ℤ) : ℚ) * (100 : ℤ) / b = percentOf c b := by
    rw [percentOf]
    push_cast
    ring
  rw [Term.cell_arithmetic .div scaled divisor, d.arithmetic_div_exact (by exact_mod_cast hb),
    quotient]

theorem storedPercent_eq (binary : Binary d) {c b : ℤ} (hc : |c| ≤ 2 ^ 900) (hb : |b| ≤ 2 ^ 900)
    (nonzero : b ≠ 0) :
    d.double (roundAway 2 (percentOf c b)) = .ok (.number .double (storedPercent c b)) := by
  have finite := isFinite_stored nonzero (abs_sub_le_of_moderate hc hb)
  rw [Dialect.double, binary, Double.toRat?_eq finite]
  rfl

/-- Without a difference there is no change in percent either. -/
theorem cell_quotient_null {b : ℤ} (hbase : s.cell d [env] = .ok (.int b))
    (hdifference : t.cell d [env] = .ok .null) :
    (Term.arithmetic .div (.arithmetic .mul (.cast t .number) (.bound (.int 100)))
      (.cast (.cast s .number) .number)).cell d [env] = .ok .null := by
  have hundred : (Term.bound (.int 100)).cell d [env] = .ok (.int 100) := rfl
  have scaled : (Term.arithmetic .mul (.cast t .number) (.bound (.int 100))).cell d [env] =
      .ok .null := Term.cell_arithmetic .mul (Term.cell_cast .number hdifference) hundred
  exact Term.cell_arithmetic .div scaled (Term.cell_cast .number (Term.cell_cast .number hbase))

/-- There is nothing to compare with without a base, and with a base of zero. -/
theorem truth_baseless (hbase : s.cell d [env] = .ok (.ofInt? b)) :
    (Condition.either (.isNull s) (.compare .eq s (.bound (.int 0)))).truth d [env] =
      .ok (.ofBool (b.elim true fun n => decide (n = 0))) := by
  have zero : (Term.bound (.int 0)).cell d [env] = .ok (.int 0) := rfl
  cases b with
  | none =>
    exact Condition.truth_either (Condition.truth_isNull hbase)
      ((Condition.truth_compare .eq hbase zero).trans (d.test_null_left _ _))
  | some n =>
    rw [Condition.truth_either (Condition.truth_isNull hbase)
      ((Condition.truth_compare .eq hbase zero).trans (d.test_int_eq n 0)), Option.elim_some]
    cases decide (n = 0) <;> rfl

theorem cell_percent (binary : Binary d) (hc : ∀ n ∈ c, |n| ≤ 2 ^ 900) (hb : ∀ n ∈ b, |n| ≤ 2 ^ 900)
    (hbase : s.cell d [env] = .ok (.ofInt? b))
    (hdifference : t.cell d [env] = .ok (.ofInt? (change c b))) :
    (Relation.percentTerm s t).cell d [env] = .ok (percentCell storedPercent c b) := by
  have baseless := truth_baseless hbase
  cases b with
  | none =>
    rw [Relation.percentTerm, Term.cell_choice_yes baseless]
    cases c <;> rfl
  | some b =>
    rw [Option.elim_some] at baseless
    by_cases hzero : b = 0
    · rw [decide_eq_true hzero] at baseless
      rw [Relation.percentTerm, Term.cell_choice_yes baseless, hzero]
      cases c <;> rfl
    · rw [decide_eq_false hzero] at baseless
      rw [Relation.percentTerm, Term.cell_choice_no baseless (by decide), Option.elim_some]
      cases c with
      | none =>
        have rounded := Term.cell_round 2 (cell_quotient_null hbase hdifference)
        exact Term.cell_cast .float rounded
      | some c =>
        have rounded := Term.cell_round 2 (cell_quotient hzero hbase hdifference)
        rw [Term.cell_cast .float rounded, percentCell, if_neg hzero]
        exact storedPercent_eq binary (hc c rfl) (hb b rfl) hzero

end Terms

/-! ### The rows of the join

The two sources of the join are one table under two names. A pair of its rows is joined if the
second one is of the same location in the year before. -/

section Join

variable {tables : Tables}

/-- What a measured column holds in one of the two sources. -/
theorem column_eq (h : r.YearlyContent rows) {row : Record} (hrow : row ∈ rows) {env : Env}
    {source : String} (hsource : env source = row.stored) {name : String}
    (hname : name ∈ r.type.measured) :
    (Term.column source name).cell d [env] = .ok (.ofInt? (row.int? name)) := by
  rw [Term.cell_column, hsource, Record.stored_eq (h.measured_eq hrow hname).1,
    Cell.ofValue_ofInt?]

/-- The year in one of the two sources. -/
theorem column_year_eq (h : r.YearlyContent rows) {row : Record} (hrow : row ∈ rows) {env : Env}
    {source : String} (hsource : env source = row.stored) :
    (Term.column source "year").cell d [env] = .ok (.int row.year) := by
  rw [Term.cell_column, hsource, h.keyed.stored_int hrow (List.mem_singleton_self _)]
  rfl

/-- The conditions of the join. -/
def joinConditions (level : Level) : List Condition :=
  level.keyColumns.map (fun k => .compare .eq (.column "current" k) (.column "base" k)) ++
    [.compare .eq (.column "current" "year")
      (.arithmetic .add (.column "base" "year") (.bound (.int 1)))]

/-- They hold of a year and the year before. -/
theorem holdAll_eq (h : r.YearlyContent rows) (hc : current ∈ rows) (hb : base ∈ rows) :
    Condition.holdAll d (joinConditions r.level) (joinEnv current base) =
      .ok (precedes r.level.keyColumns current base) := by
  have located : Condition.holdAll d (r.level.keyColumns.map fun k =>
      .compare .eq (.column "current" k) (.column "base" k)) (joinEnv current base) =
      .ok (RowKey.same (base.key r.level.keyColumns) (current.key r.level.keyColumns)) := by
    rw [h.keyed.typed.same_key hb hc,
      Condition.holdAll_sameTexts (s := current.text) (t := base.text)]
    · simp only [Record.texts, eq_comm]
    · intro k hk
      rw [joinEnv_current, h.keyed.stored_text hc hk]
    · intro k hk
      rw [joinEnv_base, h.keyed.stored_text hb hk]
  have one : (Term.bound (.int 1)).cell d [joinEnv current base] = .ok (.int 1) := rfl
  have next : (Term.arithmetic .add (.column "base" "year") (.bound (.int 1))).cell d
      [joinEnv current base] = .ok (.int (base.year + 1)) :=
    (Term.cell_arithmetic .add (column_year_eq h hb (joinEnv_base _ _)) one).trans
      (d.arithmetic_add_int base.year 1)
  have dated := Condition.holdAll_singleton
    ((Condition.truth_compare .eq (column_year_eq h hc (joinEnv_current _ _)) next).trans
      (d.test_int_eq _ _))
  rw [joinConditions, Condition.holdAll_append located dated, precedes]
  simp only [Truth.ofBool_eq_yes, decide_eq_true_eq, eq_comm (a := current.year)]

theorem row_comparisonOutputs (h : r.YearlyContent rows) (binary : Binary d) (hc : current ∈ rows)
    (hb : base ∈ rows) {name : String} (hname : name ∈ r.type.measured) :
    Output.row d (Relation.comparisonOutputs name) [joinEnv current base] =
      .ok (fieldCells storedPercent name (current.int? name) (base.int? name)) := by
  have hbase := column_eq (d := d) h hb (joinEnv_base current base) hname
  have hcurrent := column_eq (d := d) h hc (joinEnv_current current base) hname
  have hdifference := cell_sub hcurrent hbase
  have hpercent := cell_percent binary (h.measured_eq hc hname).2 (h.measured_eq hb hname).2 hbase
    hdifference
  rw [Output.row, Relation.comparisonOutputs, List.mapM_cons, List.mapM_cons, List.mapM_cons,
    List.mapM_cons, hbase, hcurrent, hdifference, hpercent]
  rfl

/-- What is shown of a pair of rows. -/
def joinOutputs (level : Level) (type : PropertyType) : List Output :=
  level.keyColumns.map (fun k => ⟨.column "current" k, none⟩) ++
    [⟨.column "current" "year", some "year"⟩, ⟨.column "base" "year", some "base_year"⟩] ++
    type.measured.flatMap Relation.comparisonOutputs

theorem row_joinOutputs (h : r.YearlyContent rows) (binary : Binary d) (hc : current ∈ rows)
    (hb : base ∈ rows) :
    Output.row d (joinOutputs r.level r.type) [joinEnv current base] =
      .ok (rowCells storedPercent r current base) := by
  have located : Output.row d (r.level.keyColumns.map fun k => ⟨.column "current" k, none⟩)
      [joinEnv current base] =
      .ok (r.level.keyColumns.map fun k => (k, .text (current.text k))) := by
    rw [Output.row, List.mapM_map]
    refine Outcome.mapM_eq_ok_map fun k hk => ?_
    rw [Function.comp_apply, Term.cell_column, joinEnv_current,
      h.keyed.stored_text hc hk]
    rfl
  have dated : Output.row d [⟨.column "current" "year", some "year"⟩,
      ⟨.column "base" "year", some "base_year"⟩] [joinEnv current base] =
      .ok [("year", .int current.year), ("base_year", .int base.year)] := by
    rw [Output.row, List.mapM_cons, List.mapM_cons, column_year_eq h hc (joinEnv_current _ _),
      column_year_eq h hb (joinEnv_base _ _)]
    rfl
  exact Outcome.mapM_append_eq_ok (Outcome.mapM_append_eq_ok located dated)
    (Outcome.mapM_flatMap_eq_ok fun name hname => row_comparisonOutputs h binary hc hb hname)

/-- Nothing is computed of more than one pair. -/
theorem joinOutputs_plain (level : Level) (type : PropertyType) :
    (joinOutputs level type).any (·.term.isAggregate) = false := by
  simp [joinOutputs, List.any_flatMap, Relation.comparisonOutputs, Relation.percentTerm,
    Term.isAggregate, Condition.isAggregate]

/-- The statement that compares the years of a rollup. -/
def joinStatement (r : Relation) : Statement where
  outputs := joinOutputs r.level r.type
  source := ⟨⟨r.name, some "current"⟩, some (.table ⟨r.name, some "base"⟩, joinConditions r.level)⟩

theorem comparisonStatement_eq (rollup : r.family = .rollup) (yearly : r.grain = .year) :
    r.comparisonStatement = .ok (joinStatement r) := if_pos ⟨rollup, yearly⟩

/-- The rows of the statement: one for each year with the year before, with the changes in percent
rounded as the store does it. -/
theorem rows_joinStatement (h : r.YearlyContent rows)
    (stored : tables r.name = rows.map Record.stored) (binary : Binary d) :
    (joinStatement r).rows d tables =
      .ok ((pairs r rows).map fun p => rowCells storedPercent r p.1 p.2) := by
  have joined : (joinStatement r).source.envs d tables =
      .ok ((pairs r rows).map fun p => joinEnv p.1 p.2) := by
    refine Source.envs_join stored (congrArg Except.ok stored) fun p hp => ?_
    obtain ⟨hc, hb⟩ := List.mem_product.1 hp
    exact holdAll_eq h hc hb
  have shown : (joinStatement r).rowsOf d ((pairs r rows).map fun p => joinEnv p.1 p.2) =
      .ok (((pairs r rows).filter fun _ => true).map fun p =>
        rowCells storedPercent r p.1 p.2) := by
    refine Query.rowsOf_plain rfl (joinOutputs_plain r.level r.type) (fun _ _ => rfl) ?_
    intro p hp _
    obtain ⟨hc, hb⟩ := List.mem_product.1 (List.mem_of_mem_filter hp)
    exact row_joinOutputs h binary hc hb
  rw [Query.rows, joined, Outcome.ok_bind, shown, List.filter_true]

end Join

/-! ### Both ways

Both lists of rows are made of the same pairs by one function, with the change in percent as its
argument. -/

/-- A change that the store and rows at hand round to the same number of hundredths: it is not
halfway between two of them, and the difference is not too large for binary64 to see that. -/
def Clear (current base : ℤ) : Prop :=
  ¬IsHalfway 2 (percentOf current base) ∧ 10000 * |current - base| < 2 ^ 52

theorem rowCells_eq (h : r.YearlyContent rows) (hb : base ∈ rows)
    (clear : ∀ name ∈ r.type.measured, ∀ c ∈ current.int? name, ∀ b ∈ base.int? name, b ≠ 0 →
      Clear c b) :
    rowCells storedPercent r current base = rowCells computedPercent r current base := by
  rw [rowCells, rowCells]
  refine congrArg _ (List.flatMap_congr fun name hname => ?_)
  suffices percentCell storedPercent (current.int? name) (base.int? name) =
      percentCell computedPercent (current.int? name) (base.int? name) by
    rw [fieldCells, this, fieldCells]
  have moderate := (h.measured_eq hb hname).2
  have clear := clear name hname
  generalize current.int? name = c at clear
  generalize base.int? name = b at clear moderate
  match c, b with
  | none, _ => rfl
  | some c, none => rfl
  | some c, some b =>
    rw [percentCell, percentCell]
    split
    · rfl
    · next nonzero =>
      obtain ⟨apart, small⟩ := clear c rfl b rfl nonzero
      rw [storedPercent_eq_computedPercent nonzero (moderate b rfl) apart small]

/-- **What the statement denotes, and what is computed of the same rows at hand.** Both have one row
for each year whose preceding year is there, with the same cells but for the changes in percent, and
they are the same rows if each change is clear. Neither of them is refused. -/
theorem comparison_denotes (rollup : r.family = .rollup) (yearly : r.grain = .year)
    (h : r.YearlyContent rows) (tables : Tables) (stored : tables r.name = rows.map Record.stored)
    (binary : Binary d) :
    ∃ statement table flat computed,
      r.comparisonStatement = .ok statement ∧ statement.rows d tables = .ok table ∧
      YearlyComparison.rows r.level.keyColumns r.type.measured rows = .ok flat ∧
      flat.mapM Record.cells = .ok computed ∧
      table.Perm ((pairs r rows).map fun p => rowCells storedPercent r p.1 p.2) ∧
      computed.Perm ((pairs r rows).map fun p => rowCells computedPercent r p.1 p.2) ∧
      ((∀ p ∈ pairs r rows, ∀ name ∈ r.type.measured, ∀ c ∈ p.1.int? name, ∀ b ∈ p.2.int? name,
        b ≠ 0 → Clear c b) → table.Perm computed) := by
  obtain ⟨flat, hflat, perm⟩ := exists_rows h
  have kept : ∀ p ∈ pairs r rows, p.1 ∈ rows ∧ p.2 ∈ rows := fun p hp =>
    List.mem_product.1 (List.mem_of_mem_filter hp)
  have valued : ((pairs r rows).map fun p => rowValues r p.1 p.2).mapM Record.cells =
      .ok ((pairs r rows).map fun p => rowCells computedPercent r p.1 p.2) := by
    rw [List.mapM_map]
    exact Outcome.mapM_eq_ok_map fun p hp => cells_rowValues h (kept p hp).1 (kept p hp).2
  obtain ⟨computed, hcomputed, perm'⟩ := Outcome.exists_mapM_of_perm perm valued
  refine ⟨joinStatement r, _, flat, computed, comparisonStatement_eq rollup yearly,
    rows_joinStatement h stored binary, hflat, hcomputed, .refl _, perm', fun clear => ?_⟩
  have same : ((pairs r rows).map fun p => rowCells storedPercent r p.1 p.2) =
      (pairs r rows).map fun p => rowCells computedPercent r p.1 p.2 :=
    List.map_congr_left fun p hp => rowCells_eq h (kept p hp).2 (clear p hp)
  rw [same]
  exact perm'.symm

/-! ### A change halfway between two hundredths

From 800 to 801 is 0.125 percent. The store rounds it away from zero, and rows at hand round it to
the even neighbour. -/

/-- Numbers change their kind without a loss, but for the rounding to binary64. -/
def nearestBinary : Dialect where
  toDouble x := (Double.nearest x).toRat?
  toExact := id
  sent := id
  likes _ _ := false
  meets _ _ := false

/-- A year of a commune in which everything that is measured is the same number. -/
def uniformYear (year n : ℤ) : Record :=
  [("insee_code", .text "75112"), ("year", .int year)] ++
    PropertyType.apartment.measured.map fun name => (name, .int n)

/-- From 800 to 801 is an eighth of a percent. -/
def eighthOfPercent : List Record := [uniformYear 2023 800, uniformYear 2024 801]

theorem get?_uniformYear (year n : ℤ) :
    ∀ name ∈ PropertyType.apartment.measured,
      (uniformYear year n).get? name = some (.ofInt? (some n)) := by
  have each : PropertyType.apartment.measured.map (uniformYear year n).get? =
      PropertyType.apartment.measured.map fun _ => some (.ofInt? (some n)) := rfl
  exact List.map_inj_left.1 each

theorem yearlyContent_eighthOfPercent :
    Relation.YearlyContent ⟨.rollup, .commune, .apartment, .year⟩ eighthOfPercent := by
  have rows : ∀ row ∈ eighthOfPercent, ∃ year n, row = uniformYear year n ∧ |n| ≤ 2 ^ 10 := by
    rintro row hrow
    obtain rfl | hrow := List.mem_cons.1 hrow
    · exact ⟨2023, 800, rfl, by decide⟩
    · obtain rfl := List.mem_singleton.1 hrow
      exact ⟨2024, 801, rfl, by decide⟩
  refine ⟨⟨fun row hrow k hk => ?_, fun row hrow k hk => ?_, ?_⟩, fun row hrow name hname => ?_⟩
  · obtain ⟨year, n, rfl, -⟩ := rows row hrow
    obtain rfl := List.mem_singleton.1 hk
    exact ⟨"75112", rfl⟩
  · obtain ⟨year, n, rfl, -⟩ := rows row hrow
    obtain rfl := List.mem_singleton.1 hk
    exact ⟨year, rfl⟩
  · refine List.pairwise_pair.2 fun same => ?_
    have years : ([.text "75112", .int 2023] : RowKey) = [.text "75112", .int 2024] := same
    simp at years
  · obtain ⟨year, n, rfl, small⟩ := rows row hrow
    refine ⟨some n, get?_uniformYear year n name hname, fun m hm => ?_⟩
    obtain rfl := Option.some_inj.1 hm
    exact small.trans (pow_le_pow_right₀ one_le_two (by decide))

/-- The store gives 0.13 percent, and rows at hand give 0.12 percent. -/
theorem comparison_eighthOfPercent :
    ∃ statement table flat computed,
      Relation.comparisonStatement ⟨.rollup, .commune, .apartment, .year⟩ = .ok statement ∧
      statement.rows nearestBinary (fun _ => eighthOfPercent.map Record.stored) = .ok table ∧
      YearlyComparison.rows Level.commune.keyColumns PropertyType.apartment.measured
        eighthOfPercent = .ok flat ∧
      flat.mapM Record.cells = .ok computed ∧ ¬table.Perm computed := by
  obtain ⟨statement, table, flat, computed, hs, htable, hflat, hcomputed, perm, perm', -⟩ :=
    comparison_denotes (d := nearestBinary) rfl rfl yearlyContent_eighthOfPercent
      (fun _ => eighthOfPercent.map Record.stored) rfl fun _ => rfl
  refine ⟨statement, table, flat, computed, hs, htable, hflat, hcomputed, fun same => ?_⟩
  have rows := perm.symm.trans (same.trans perm')
  have differ : rowCells storedPercent ⟨.rollup, .commune, .apartment, .year⟩
      (uniformYear 2024 801) (uniformYear 2023 800) ≠
      rowCells computedPercent ⟨.rollup, .commune, .apartment, .year⟩
        (uniformYear 2024 801) (uniformYear 2023 800) := by
    decide +kernel
  exact differ (List.singleton_inj.1 (List.perm_singleton.1 rows))

end YearlyComparison

end PropertyMarket
