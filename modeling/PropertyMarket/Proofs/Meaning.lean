import Mathlib.Data.List.Dedup
import Mathlib.Data.List.ProdSigma
import PropertyMarket.Proofs.Cell
import PropertyMarket.Proofs.RowKeys

/-!
# What a statement denotes

A statement denotes the rows that the store gives for it, or a refusal. Its sources are joined
pair by pair; the conditions are asked of each row of the join, and a row is kept if all of them
are true, not if one is unknown; the rows that are kept are put into groups, or into one if there
is only something to be computed of all of them; and each group gives one row, with a cell for
each term that is shown. Order and paging are left out: what is denoted is a list in no particular
order, so two statements agree if their lists are permutations of each other.

## Main definitions

* `StoredRow`, `Tables`, `Env` — what is stored, and what the columns of some sources hold
* `Term.cell`, `Condition.truth` — what a term is of a group, and whether a condition holds
* `Env.select`, `Env.groups` — the rows that are kept, and their groups
* `Query.rowsOf`, `Query.rows` — the rows of a selection, and of a statement

## Main results

* `Term.cell_arithmetic` and its like — a term, once it is known what its parts are
* `Source.envs_join` — the join of two tables is made of the pairs of rows that satisfy its
  condition
* `Query.rowsOf_plain`, `Query.rowsOf_grouped` — a selection shows the rows that are kept, or one
  row for each key among them

## Implementation notes

A term is always taken of a group. A column outside of every aggregate is taken of the first row of
the group, which is like the others in what they are grouped by; the argument of an aggregate is
taken of each row alone. A condition is asked of a group of one row.

What a query denotes is computed by functions that may refuse, and most lemmas below have one shape:
if each part of a term, of a condition or of a selection is known, then so is the whole. They are
stated for lists of items that are mapped to rows, since this is how rows come up: a table at hand
is the list of its rows as they are stored.
-/

namespace PropertyMarket

/-! ### What is stored

A row of a source gives a cell for each column, or refuses a name that it does not have. Rows at
hand are stored by storing each value, which is refused for collections and for numbers that are not
finite. -/

/-- A row of a source: what it holds in each column, or why it cannot be asked for it. -/
abbrev StoredRow := String → Except Refusal Cell

/-- A row at hand as it is stored. -/
def Record.stored (row : Record) : StoredRow := fun name =>
  match row.get? name with
  | some value => Cell.ofValue value
  | none => .error (.unknownColumn name)

theorem Record.stored_eq {row : Record} {name : String} {value : Value}
    (h : row.get? name = some value) : row.stored name = Cell.ofValue value := by
  rw [stored, h]

namespace Record

/-- A text of a key as it is stored. -/
theorem Keyed.stored_text {texts ints : List String} {rows : List Record} {row : Record}
    (h : Keyed texts ints rows) (hrow : row ∈ rows) {k : String} (hk : k ∈ texts) :
    row.stored k = .ok (.text (row.text k)) := by
  rw [stored_eq (h.typed.get?_text hrow hk), Cell.ofValue_text]

/-- An integer of a key as it is stored. -/
theorem Keyed.stored_int {texts ints : List String} {rows : List Record} {row : Record}
    (h : Keyed texts ints rows) (hrow : row ∈ rows) {k : String} (hk : k ∈ ints) :
    row.stored k = .ok (.int (row.int k)) := by
  rw [stored_eq (h.typed.get?_int hrow hk), Cell.ofValue_int]

/-- A row with its values as the store would hold them. -/
def cells (row : Record) : Except Refusal (List (String × Cell)) :=
  row.mapM fun field => do return (field.1, ← Cell.ofValue field.2)

end Record

/-- The rows of each table. A table that a statement does not read does not matter. -/
abbrev Tables := String → List StoredRow

/-- What the columns of some sources hold, by the name of the source and then that of the column. -/
abbrev Env := String → StoredRow

namespace Env

/-- No source at all. -/
def empty : Env := fun _ name => .error (.unknownColumn name)

/-- One source more. -/
def extend (env : Env) (source : String) (row : StoredRow) : Env := fun name =>
  if name = source then row else env name

@[simp] theorem extend_self (env : Env) (source : String) (row : StoredRow) :
    env.extend source row source = row := if_pos rfl

theorem extend_of_ne (env : Env) {source other : String} (row : StoredRow) (h : other ≠ source) :
    env.extend source row other = env other := if_neg h

end Env

/-! ### Terms and conditions

Terms and conditions are defined together, since a term may choose by a condition. Both may refuse,
and a refusal of any part is one of the whole, except for the branch that a choice does not take. -/

mutual

/-- What a term is of a group. A group of one row gives the value of a term without aggregates. -/
def Term.cell (d : Dialect) : Term → List Env → Except Refusal Cell
  | .column source name, rows =>
    match rows with
    | env :: _ => env source name
    | [] => .error (.unknownColumn name)
  | .bound value, _ => Cell.ofValue value
  | .truth value, _ => .ok (.truth value)
  | .null, _ => .ok .null
  | .arithmetic operator left right, rows => do
    d.arithmetic operator (← left.cell d rows) (← right.cell d rows)
  | .cast term type, rows => do d.cast (← term.cell d rows) type
  | .round term places, rows => do (← term.cell d rows).round places
  | .coalesce term value, rows => do
    let cell ← term.cell d rows
    if cell = .null then Cell.ofValue value else return cell
  | .aggregate function argument, rows => do
    d.aggregate function (← rows.mapM fun env => argument.cell d [env])
  | .countRows, rows => .ok (.int rows.length)
  | .percentile fraction argument, rows => do
    d.percentile (← Cell.ofValue fraction) (← rows.mapM fun env => argument.cell d [env])
  | .slope y x, rows => do
    d.slope (← rows.mapM fun env => do return (← y.cell d [env], ← x.cell d [env]))
  | .choice condition yes no, rows => do
    if (← condition.truth d rows) = .yes then yes.cell d rows
    else
      match no with
      | some term => term.cell d rows
      | none => return .null

/-- Does a condition hold of a group? The answer may be unknown, and the question may be refused. -/
def Condition.truth (d : Dialect) : Condition → List Env → Except Refusal Truth
  | .compare comparator left right, rows => do
    d.test comparator (← left.cell d rows) (← right.cell d rows)
  | .between term low high, rows => do
    let cell ← term.cell d rows
    return (← d.test .ge cell (← Cell.ofValue low)).and (← d.test .le cell (← Cell.ofValue high))
  | .oneOf term values, rows => do
    let cell ← term.cell d rows
    let truths ← values.mapM fun value => do d.test .eq cell (← Cell.ofValue value)
    return truths.foldr Truth.or .no
  | .matches term pattern, rows => do
    match ← term.cell d rows with
    | .null => return .unknown
    | .text s => return .ofBool (d.likes pattern s)
    | _ => .error .mistyped
  | .isNull term, rows => do return .ofBool ((← term.cell d rows) = .null)
  | .isNotNull term, rows => do return .ofBool ((← term.cell d rows) ≠ .null)
  | .either first second, rows => do return (← first.truth d rows).or (← second.truth d rows)
  | .intersects shape west south east north, rows => do
    match ← shape.cell d rows with
    | .null => return .unknown
    | cell => return .ofBool (d.meets cell [west, south, east, north])

end

mutual

/-- Is something computed of a group of rows? -/
def Term.isAggregate : Term → Bool
  | .column .. | .bound _ | .truth _ | .null => false
  | .arithmetic _ left right => left.isAggregate || right.isAggregate
  | .cast term _ | .round term _ | .coalesce term _ => term.isAggregate
  | .aggregate .. | .countRows | .percentile .. | .slope .. => true
  | .choice condition yes no =>
    condition.isAggregate || yes.isAggregate ||
      match no with
      | some term => term.isAggregate
      | none => false

/-- Is something computed of a group of rows in a condition? -/
def Condition.isAggregate : Condition → Bool
  | .compare _ left right => left.isAggregate || right.isAggregate
  | .between term .. | .oneOf term _ | .matches term _ | .isNull term | .isNotNull term =>
    term.isAggregate
  | .either first second => first.isAggregate || second.isAggregate
  | .intersects shape .. => shape.isAggregate

end

/-! ### Selections

The three steps of a selection, each of them a function of what the one before it has left: which
rows are kept, how they are grouped, and what is shown of each group. -/

/-- Do all conditions hold of a row? -/
def Condition.holdAll (d : Dialect) (conditions : List Condition) (env : Env) :
    Except Refusal Bool := do
  let truths ← conditions.mapM fun condition => condition.truth d [env]
  return truths.all (· = .yes)

namespace Env

/-- The rows of which all conditions hold, in the order of the rows; a row for which one is unknown
is left out. -/
def select (d : Dialect) (conditions : List Condition) (rows : List Env) :
    Except Refusal (List Env) := do
  let asked ← rows.mapM fun env => do return (env, ← Condition.holdAll d conditions env)
  return (asked.filter (·.2)).map (·.1)

/-- The rows in groups by some terms, one group for each list of cells that these terms have. Null
is a cell like others here, so that rows without a value are put together. -/
def groups (d : Dialect) (terms : List Term) (rows : List Env) :
    Except Refusal (List (List Env)) := do
  let keyed ← rows.mapM fun env => do return (← terms.mapM fun term => term.cell d [env], env)
  let keys := (keyed.map (·.1)).dedup
  return keys.map fun key => (keyed.filter (·.1 = key)).map (·.2)

end Env

/-- The name under which a term is shown. -/
def Output.name (output : Output) : String :=
  match output.label, output.term with
  | some label, _ => label
  | none, .column _ name => name
  | none, _ => "?column?"

/-- The row of a group. -/
def Output.row (d : Dialect) (outputs : List Output) (group : List Env) :
    Except Refusal (List (String × Cell)) :=
  outputs.mapM fun output => do return (output.name, ← output.term.cell d group)

namespace Query

variable {σ : Type}

/-- The groups of a selection: the ones that are asked for, one if something is computed of all
rows, or each row for itself. -/
def groupsOf (d : Dialect) (q : Query σ) (rows : List Env) : Except Refusal (List (List Env)) :=
  if q.groups.isEmpty then
    if q.outputs.any (·.term.isAggregate) then .ok [rows] else .ok (rows.map fun env => [env])
  else Env.groups d q.groups rows

/-- The rows of a selection from the rows of its source. One row that is refused means that there
are none. -/
def rowsOf (d : Dialect) (q : Query σ) (rows : List Env) :
    Except Refusal (List (List (String × Cell))) := do
  let kept ← Env.select d q.conditions rows
  let groups ← q.groupsOf d kept
  groups.mapM (Output.row d q.outputs)

end Query

/-! ### Sources

A statement reads one table, or joins it with another table or with a selection of its own. The join
is a selection among all pairs, so it needs no account of its own. -/

/-- The rows of a table. -/
def NamedTable.envs (tables : Tables) (t : NamedTable) : List Env :=
  (tables t.table).map (Env.empty.extend t.reach)

namespace Joined

/-- The name by which the columns are reached. -/
def reach : Joined → String
  | .table t => t.reach
  | .derived _ label => label

/-- The row that a selection gives, as one of a source. -/
def storedRow (row : List (String × Cell)) : StoredRow := fun name =>
  (row.lookup name).elim (.error (.unknownColumn name)) .ok

/-- The rows of what a table is joined with: those of the table, or those of the selection. -/
def rows (d : Dialect) (tables : Tables) : Joined → Except Refusal (List StoredRow)
  | .table t => .ok (tables t.table)
  | .derived q _ => (q.rowsOf d (q.source.envs tables)).map (List.map storedRow)

end Joined

/-- The rows of a source: of a join, the pairs of which all conditions hold. -/
def Source.envs (d : Dialect) (tables : Tables) (s : Source) : Except Refusal (List Env) :=
  match s.join with
  | none => .ok (s.first.envs tables)
  | some (joined, on) => do
    let rows ← joined.rows d tables
    Env.select d on ((s.first.envs tables).flatMap fun env => rows.map (env.extend joined.reach))

/-- The rows of a statement, in no particular order: one for each group, or for each row that is
selected, with what is shown of it. Its sort and its page are not looked at. -/
def Query.rows (d : Dialect) (tables : Tables) (statement : Statement) :
    Except Refusal (List (List (String × Cell))) := do
  statement.rowsOf d (← statement.source.envs d tables)

/-! ### Term by term

What a term is, from what its parts are. Each lemma is about one constructor, so that the cell of a
given term is found by applying them from the inside out. -/

section Terms

variable {d : Dialect} {rows : List Env} {s t : Term} {a b : Cell}

theorem Term.cell_column (d : Dialect) (source name : String) (env : Env) (rows : List Env) :
    (Term.column source name).cell d (env :: rows) = env source name := rfl

/-- An operation, once it is known what its left side is. -/
theorem Term.cell_arithmetic_left (operator : Arithmetic) (hs : s.cell d rows = .ok a)
    (t : Term) : (Term.arithmetic operator s t).cell d rows =
      t.cell d rows >>= d.arithmetic operator a := by
  show (do d.arithmetic operator (← s.cell d rows) (← t.cell d rows)) = _
  rw [hs, Outcome.ok_bind]

theorem Term.cell_arithmetic (operator : Arithmetic) (hs : s.cell d rows = .ok a)
    (ht : t.cell d rows = .ok b) :
    (Term.arithmetic operator s t).cell d rows = d.arithmetic operator a b := by
  rw [cell_arithmetic_left operator hs, ht, Outcome.ok_bind]

theorem Term.cell_cast (type : ColumnType) (ht : t.cell d rows = .ok a) :
    (Term.cast t type).cell d rows = d.cast a type := by
  show (do d.cast (← t.cell d rows) type) = _
  rw [ht, Outcome.ok_bind]

theorem Term.cell_round (places : ℕ) (ht : t.cell d rows = .ok a) :
    (Term.round t places).cell d rows = a.round places := by
  show (do (← t.cell d rows).round places) = _
  rw [ht, Outcome.ok_bind]

theorem Term.cell_coalesce {value : Value} (ht : t.cell d rows = .ok a) :
    (Term.coalesce t value).cell d rows = if a = .null then Cell.ofValue value else .ok a := by
  show (do
    let cell ← t.cell d rows
    if cell = Cell.null then Cell.ofValue value else return cell) = _
  rw [ht, Outcome.ok_bind, Outcome.pure_eq_ok]

theorem Term.cell_aggregate (function : Aggregate) {cells : List Cell}
    (ht : (rows.mapM fun env => t.cell d [env]) = .ok cells) :
    (Term.aggregate function t).cell d rows = d.aggregate function cells := by
  show (do d.aggregate function (← rows.mapM fun env => t.cell d [env])) = _
  rw [ht, Outcome.ok_bind]

theorem Term.cell_percentile {fraction : Value} {cells : List Cell}
    (hf : Cell.ofValue fraction = .ok a) (ht : (rows.mapM fun env => t.cell d [env]) = .ok cells) :
    (Term.percentile fraction t).cell d rows = d.percentile a cells := by
  show (do d.percentile (← Cell.ofValue fraction) (← rows.mapM fun env => t.cell d [env])) = _
  rw [hf, Outcome.ok_bind, ht, Outcome.ok_bind]

theorem Term.cell_slope {y x : Term} {points : List (Cell × Cell)}
    (h : (rows.mapM fun env => do return (← y.cell d [env], ← x.cell d [env])) = .ok points) :
    (Term.slope y x).cell d rows = d.slope points := by
  show (do d.slope (← rows.mapM fun env => do
    return (← y.cell d [env], ← x.cell d [env]))) = _
  rw [h, Outcome.ok_bind]

theorem Term.cell_choice_yes {condition : Condition} {no : Option Term}
    (hc : condition.truth d rows = .ok .yes) :
    (Term.choice condition t no).cell d rows = t.cell d rows := by
  cases no with
  | none =>
    show (do if (← condition.truth d rows) = Truth.yes then t.cell d rows else .ok .null) = _
    rw [hc, Outcome.ok_bind, if_pos rfl]
  | some no =>
    show (do if (← condition.truth d rows) = Truth.yes then t.cell d rows else no.cell d rows) = _
    rw [hc, Outcome.ok_bind, if_pos rfl]

theorem Term.cell_choice_no {condition : Condition} {no : Option Term} {truth : Truth}
    (hc : condition.truth d rows = .ok truth) (not_yes : truth ≠ .yes) :
    (Term.choice condition s no).cell d rows = no.elim (.ok .null) fun t => t.cell d rows := by
  cases no with
  | none =>
    show (do if (← condition.truth d rows) = Truth.yes then s.cell d rows else .ok .null) = _
    rw [hc, Outcome.ok_bind, if_neg not_yes, Option.elim_none]
  | some no =>
    show (do if (← condition.truth d rows) = Truth.yes then s.cell d rows else no.cell d rows) = _
    rw [hc, Outcome.ok_bind, if_neg not_yes, Option.elim_some]

theorem Condition.truth_compare (comparator : Comparator) (hs : s.cell d rows = .ok a)
    (ht : t.cell d rows = .ok b) :
    (Condition.compare comparator s t).truth d rows = d.test comparator a b := by
  show (do d.test comparator (← s.cell d rows) (← t.cell d rows)) = _
  rw [hs, Outcome.ok_bind, ht, Outcome.ok_bind]

theorem Condition.truth_isNull (ht : t.cell d rows = .ok a) :
    (Condition.isNull t).truth d rows = .ok (.ofBool (a = .null)) := by
  show (do return Truth.ofBool ((← t.cell d rows) = Cell.null)) = _
  rw [ht, Outcome.ok_bind, Outcome.pure_eq_ok]

theorem Condition.truth_isNotNull (ht : t.cell d rows = .ok a) :
    (Condition.isNotNull t).truth d rows = .ok (.ofBool (a ≠ .null)) := by
  show (do return Truth.ofBool ((← t.cell d rows) ≠ Cell.null)) = _
  rw [ht, Outcome.ok_bind, Outcome.pure_eq_ok]

theorem Condition.truth_either {first second : Condition} {x y : Truth}
    (hx : first.truth d rows = .ok x) (hy : second.truth d rows = .ok y) :
    (Condition.either first second).truth d rows = .ok (x.or y) := by
  show (do return (← first.truth d rows).or (← second.truth d rows)) = _
  rw [hx, Outcome.ok_bind, hy, Outcome.ok_bind, Outcome.pure_eq_ok]

end Terms

/-! ### Step by step

What a selection gives, from what its conditions and its terms are of each row. The rows are images
of items of any type, and so are the groups of their keys. -/

section Steps

variable {d : Dialect} {rows : List Env}

theorem Condition.holdAll_eq {conditions : List Condition} {env : Env}
    (truth : Condition → Truth) (h : ∀ c ∈ conditions, c.truth d [env] = .ok (truth c)) :
    holdAll d conditions env = .ok (conditions.all fun c => truth c = .yes) := by
  rw [holdAll, Outcome.mapM_eq_ok_map h, Outcome.ok_bind, Outcome.pure_eq_ok, List.all_map]
  rfl

/-- All conditions hold of a row if each of them is true. -/
theorem Condition.holdAll_eq_true_iff {conditions : List Condition} {env : Env} :
    holdAll d conditions env = .ok true ↔ ∀ c ∈ conditions, c.truth d [env] = .ok .yes := by
  constructor
  · intro h
    obtain ⟨truths, asked, holds⟩ := Outcome.bind_eq_ok_iff.1 h
    have all : ∀ t ∈ truths, t = .yes := by simpa using holds
    have each := Outcome.mapM_eq_ok_iff.1 asked
    clear h asked holds
    induction each with
    | nil => simp
    | cons first _ ih =>
      obtain ⟨yes, rest⟩ := List.forall_mem_cons.1 all
      exact List.forall_mem_cons.2 ⟨yes ▸ first, ih rest⟩
  · intro h
    rw [holdAll_eq (fun _ => .yes) h]
    simp

theorem Condition.holdAll_singleton {condition : Condition} {env : Env} {truth : Truth}
    (h : condition.truth d [env] = .ok truth) :
    holdAll d [condition] env = .ok (decide (truth = .yes)) := by
  have all : ∀ c ∈ [condition], c.truth d [env] = .ok truth := by
    simpa using h
  rw [holdAll_eq (fun _ => truth) all, List.all_cons, List.all_nil, Bool.and_true]

theorem Condition.holdAll_map {α : Type} {items : List α} {condition : α → Condition} {env : Env}
    {p : α → Bool} (h : ∀ x ∈ items, (condition x).truth d [env] = .ok (.ofBool (p x))) :
    holdAll d (items.map condition) env = .ok (items.all p) := by
  have asked : (items.map condition).mapM (fun c => c.truth d [env]) =
      .ok (items.map fun x => Truth.ofBool (p x)) := by
    rw [List.mapM_map]
    exact Outcome.mapM_eq_ok_map h
  rw [holdAll, asked, Outcome.ok_bind, Outcome.pure_eq_ok, List.all_map]
  simp [Function.comp_def]

/-- Conditions that are asked together. -/
theorem Condition.holdAll_append {first second : List Condition} {env : Env} {a b : Bool}
    (ha : holdAll d first env = .ok a) (hb : holdAll d second env = .ok b) :
    holdAll d (first ++ second) env = .ok (a && b) := by
  obtain ⟨ts, hts, ha⟩ := Outcome.bind_eq_ok_iff.1 ha
  obtain ⟨us, hus, hb⟩ := Outcome.bind_eq_ok_iff.1 hb
  rw [← Except.ok.inj ha, ← Except.ok.inj hb, ← List.all_append, holdAll, List.mapM_append, hts,
    Outcome.ok_bind, hus]
  rfl

/-- Two sources are joined by some columns of texts if all of the texts are the same. -/
theorem Condition.holdAll_sameTexts {columns : List String} {source other : String} {env : Env}
    {s t : String → String} (hs : ∀ k ∈ columns, env source k = .ok (.text (s k)))
    (ht : ∀ k ∈ columns, env other k = .ok (.text (t k))) :
    holdAll d (columns.map fun k => .compare .eq (.column source k) (.column other k)) env =
      .ok (decide (columns.map s = columns.map t)) := by
  have each : columns.all (fun k => decide (s k = t k)) =
      decide (columns.map s = columns.map t) := by
    rw [Bool.eq_iff_iff]
    simp
  rw [← each]
  refine holdAll_map fun k hk => ?_
  have left := (Term.cell_column d source k env []).trans (hs k hk)
  have right := (Term.cell_column d other k env []).trans (ht k hk)
  exact (truth_compare .eq left right).trans (d.test_text_eq _ _)

section Rows

variable {α : Type} {env : α → Env} {items : List α}

/-- The rows that are kept, once it is known of which rows the conditions hold. -/
theorem Env.select_map {conditions : List Condition} {holds : α → Bool}
    (h : ∀ x ∈ items, Condition.holdAll d conditions (env x) = .ok (holds x)) :
    select d conditions (items.map env) = .ok ((items.filter holds).map env) := by
  have asked : (items.map env).mapM (fun row => do
      return (row, ← Condition.holdAll d conditions row)) =
      (.ok (items.map fun x => (env x, holds x)) : Except Refusal _) := by
    rw [List.mapM_map]
    exact Outcome.mapM_eq_ok_map fun x hx => by rw [Function.comp_apply, h x hx]; rfl
  rw [select, asked, Outcome.ok_bind, Outcome.pure_eq_ok, List.filter_map, List.map_map]
  rfl

theorem Env.select_eq {conditions : List Condition} {holds : Env → Bool}
    (h : ∀ row ∈ rows, Condition.holdAll d conditions row = .ok (holds row)) :
    select d conditions rows = .ok (rows.filter holds) := by
  have mapped : select d conditions (rows.map id) = .ok ((rows.filter holds).map id) :=
    select_map h
  rwa [List.map_id, List.map_id] at mapped

/-- The groups, once it is known what the rows are grouped by. The key of a group stands for an
index, and different indices have different keys. -/
theorem Env.groups_map {β : Type} [DecidableEq β] {terms : List Term} (index : α → β)
    {key : β → List Cell} (injective : Function.Injective key)
    (h : ∀ x ∈ items, (terms.mapM fun term => term.cell d [env x]) = .ok (key (index x))) :
    groups d terms (items.map env) =
      .ok ((items.map index).dedup.map fun i =>
        (items.filter fun x => index x = i).map env) := by
  have keyed : (items.map env).mapM (fun row => do
      return (← terms.mapM fun term => term.cell d [row], row)) =
      (.ok (items.map fun x => (key (index x), env x)) : Except Refusal _) := by
    rw [List.mapM_map]
    exact Outcome.mapM_eq_ok_map fun x hx => by rw [Function.comp_apply, h x hx]; rfl
  have keys : ((items.map fun x => (key (index x), env x)).map (·.1)).dedup =
      (items.map index).dedup.map key := by
    rw [← List.dedup_map_of_injective injective, List.map_map, List.map_map]
    rfl
  rw [groups, keyed, Outcome.ok_bind, Outcome.pure_eq_ok, keys, List.map_map]
  refine congrArg Except.ok (List.map_congr_left fun i _ => ?_)
  rw [Function.comp_apply, List.filter_map, List.map_map]
  refine congrArg _ (List.filter_congr fun x _ => ?_)
  rw [Function.comp_apply, decide_eq_decide, injective.eq_iff]

end Rows

/-- The rows of a join, once it is known of which pairs its conditions hold. -/
theorem Source.envs_join {α β : Type} {tables : Tables} {first : NamedTable} {joined : Joined}
    {on : List Condition} {xs : List α} {ys : List β} {f : α → StoredRow} {g : β → StoredRow}
    {holds : α × β → Bool} (hfirst : tables first.table = xs.map f)
    (hjoined : joined.rows d tables = .ok (ys.map g))
    (hon : ∀ p ∈ xs ×ˢ ys, Condition.holdAll d on
      ((Env.empty.extend first.reach (f p.1)).extend joined.reach (g p.2)) = .ok (holds p)) :
    Source.envs d tables ⟨first, some (joined, on)⟩ =
      .ok (((xs ×ˢ ys).filter holds).map fun p =>
        (Env.empty.extend first.reach (f p.1)).extend joined.reach (g p.2)) := by
  have pairs : ((first.envs tables).flatMap fun env =>
      (ys.map g).map (env.extend joined.reach)) =
      (xs ×ˢ ys).map fun p =>
        (Env.empty.extend first.reach (f p.1)).extend joined.reach (g p.2) := by
    show _ = (xs.flatMap fun a => ys.map (Prod.mk a)).map _
    rw [NamedTable.envs, hfirst, List.map_map, List.flatMap_map, List.map_flatMap]
    simp only [List.map_map]
    rfl
  simp only [envs, hjoined, Outcome.ok_bind]
  rw [pairs, Env.select_map hon]

/-- Something is computed of all rows. -/
theorem Query.groupsOf_computed {σ : Type} {q : Query σ} (ungrouped : q.groups = [])
    (computed : q.outputs.any (·.term.isAggregate)) (kept : List Env) :
    q.groupsOf d kept = .ok [kept] := by
  rw [groupsOf, ungrouped, List.isEmpty_nil, if_pos rfl, if_pos computed]

/-- Nothing is computed of more than one row. -/
theorem Query.groupsOf_plain {σ : Type} {q : Query σ} (ungrouped : q.groups = [])
    (plain : q.outputs.any (·.term.isAggregate) = false) (kept : List Env) :
    q.groupsOf d kept = .ok (kept.map fun env => [env]) := by
  rw [groupsOf, ungrouped, List.isEmpty_nil, if_pos rfl, plain, if_neg Bool.false_ne_true]

/-- The rows of a selection, once its groups and their rows are known. -/
theorem Query.rowsOf_eq {σ : Type} {q : Query σ} {kept : List Env} {groups : List (List Env)}
    (row : List Env → List (String × Cell)) (hkept : Env.select d q.conditions rows = .ok kept)
    (hgroups : q.groupsOf d kept = .ok groups)
    (hrow : ∀ g ∈ groups, Output.row d q.outputs g = .ok (row g)) :
    q.rowsOf d rows = .ok (groups.map row) := by
  rw [rowsOf, hkept, Outcome.ok_bind, hgroups, Outcome.ok_bind]
  exact Outcome.mapM_eq_ok_map hrow

/-- A statement that computes something of all rows gives one row. -/
theorem Query.rows_computed {tables : Tables} {statement : Statement} {kept : List Env}
    {row : List (String × Cell)} (hrows : statement.source.envs d tables = .ok rows)
    (hkept : Env.select d statement.conditions rows = .ok kept) (ungrouped : statement.groups = [])
    (computed : statement.outputs.any (·.term.isAggregate))
    (hrow : Output.row d statement.outputs kept = .ok row) :
    statement.rows d tables = .ok [row] := by
  rw [Query.rows, hrows, Outcome.ok_bind]
  refine rowsOf_eq (fun _ => row) hkept (groupsOf_computed ungrouped computed kept) fun g hg => ?_
  rw [List.mem_singleton.1 hg]
  exact hrow

/-- A selection of single rows. There is one row for each item of which the conditions hold, in the
order of the items. -/
theorem Query.rowsOf_plain {σ : Type} {q : Query σ} {α : Type} {env : α → Env} {items : List α}
    {holds : α → Bool} {row : α → List (String × Cell)} (ungrouped : q.groups = [])
    (plain : q.outputs.any (·.term.isAggregate) = false)
    (hholds : ∀ x ∈ items, Condition.holdAll d q.conditions (env x) = .ok (holds x))
    (hrow : ∀ x ∈ items, holds x = true → Output.row d q.outputs [env x] = .ok (row x)) :
    q.rowsOf d (items.map env) = .ok ((items.filter holds).map row) := by
  rw [rowsOf, Env.select_map hholds, Outcome.ok_bind, groupsOf_plain ungrouped plain,
    Outcome.ok_bind, List.map_map, List.mapM_map]
  refine Outcome.mapM_eq_ok_map fun x hx => ?_
  obtain ⟨mem, kept⟩ := List.mem_filter.1 hx
  exact hrow x mem kept

/-- A selection of groups. There is one row for each index that a kept item has, and it is computed
of the items with that index. -/
theorem Query.rowsOf_grouped {σ : Type} {q : Query σ} {α β : Type} [DecidableEq β] {env : α → Env}
    {items : List α} {holds : α → Bool} (index : α → β) {key : β → List Cell}
    {row : β → List (String × Cell)} (grouped : q.groups ≠ []) (injective : Function.Injective key)
    (hholds : ∀ x ∈ items, Condition.holdAll d q.conditions (env x) = .ok (holds x))
    (hkey : ∀ x ∈ items, (q.groups.mapM fun term => term.cell d [env x]) = .ok (key (index x)))
    (hrow : ∀ i ∈ ((items.filter holds).map index).dedup, Output.row d q.outputs
      (((items.filter holds).filter fun x => index x = i).map env) = .ok (row i)) :
    q.rowsOf d (items.map env) = .ok (((items.filter holds).map index).dedup.map row) := by
  have some_group : ¬q.groups.isEmpty = true := mt List.isEmpty_iff.1 grouped
  have keys : ∀ x ∈ items.filter holds,
      (q.groups.mapM fun term => term.cell d [env x]) = .ok (key (index x)) :=
    fun x hx => hkey x (List.mem_of_mem_filter hx)
  rw [rowsOf, Env.select_map hholds, Outcome.ok_bind, groupsOf, if_neg some_group,
    Env.groups_map index injective keys, Outcome.ok_bind, List.mapM_map]
  exact Outcome.mapM_eq_ok_map hrow

end Steps

end PropertyMarket
