import Mathlib.Order.Monotone.Basic
import PropertyMarket.Proofs.Entries

/-!
# Cells as entries

There are two accounts of what a condition says. One is that of the rows which statements denote,
where a number is finite and has a kind; the other is that of the lines which are given in pages,
where a number has a size, and only some conditions are read. If a line holds what a row holds,
both say the same wherever both say something.

Texts have the order of their characters in the first account, so that is also taken in the other
one. An exact number that is compared with a number in double precision may be sent as another
number; here it must not be.

## Main definitions

* `Cell.entry` — the entry of a cell
* `Line.Shows` — the line holds what the columns hold

## Main results

* `Condition.verdict_eq_truth` — what a condition says of a line is what it denotes
* `Query.keeps_eq_holdAll` — the lines that are picked are those of the rows that are kept

## Implementation notes

Neither account says something of every condition. A condition denotes nothing if a value is bound
that is infinite or NaN, or if cells of two kinds are compared; it has no verdict if it is a
pattern, an outline or an alternative. So the result is not an equation between partial functions:
it takes that both accounts say something, and concludes that they say the same.

What both accounts share is that entries are compared by an order in which the entries of one kind
lie as the cells of that kind do. That is `relates_of_strictMono`, which is used once for each kind.
-/

namespace PropertyMarket

/-- The entry of a cell, whatever the kind of its number is: an entry knows the size of a number and
nothing of its representation. -/
def Cell.entry : Cell → Entry
  | .null => .null
  | .truth b => .truth b
  | .text s => .text s
  | .number _ x => .number (.finite x)

theorem Cell.entry_eq_null_iff {cell : Cell} : cell.entry = .null ↔ cell = .null := by
  cases cell <;> simp [entry]

/-- A value is compared as the entry of the cell that it is bound as. -/
theorem Cell.entry_of_ofValue {value : Value} {cell : Cell} (h : ofValue value = .ok cell) :
    Entry.ofValue? value = some cell.entry := by
  cases value with
  | double x =>
    cases x with
    | finite s m e =>
      obtain rfl := Except.ok.inj h
      rfl
    | nan | infinite s => nomatch h
  | list | record => nomatch h
  | _ =>
    obtain rfl := Except.ok.inj h
    rfl

theorem Magnitude.finite_strictMono : StrictMono finite := fun _ _ less =>
  WithTop.coe_lt_coe.2 (WithTop.coe_lt_coe.2 (WithBot.coe_lt_coe.2 less))

/-! ### Comparisons

Each kind of cells is embedded into the entries by a strictly monotone map, and a comparison only
depends on how two things are ordered. So truth values, texts and numbers are compared alike in both
accounts, for one reason. -/

namespace Collation

/-- Values that are made into entries in their own order are compared as they are. -/
theorem relates_of_strictMono {α : Type} [LinearOrder α] {c : Collation} {make : α → Entry}
    (mono : StrictMono fun x => c.rank (make x)) (comparator : Comparator) (x y : α) :
    c.relates comparator (make x) (make y) = .ofBool (comparator.accepts (compare x y)) := by
  have same : compare (c.rank (make x)) (c.rank (make y)) = compare x y := by
    rw [← cmp_eq_compare, ← cmp_eq_compare]
    exact mono.cmp_map_eq x y
  rw [relates, same]

theorem strictMono_truth : StrictMono fun b => usual.rank (.truth b) := fun _ _ less =>
  Sum.Lex.inr_lt_inr_iff.2 (Sum.Lex.inl_lt_inl_iff.2 less)

theorem strictMono_text : StrictMono fun s => usual.rank (.text s) := fun _ _ less =>
  Sum.Lex.inr_lt_inr_iff.2 (Sum.Lex.inr_lt_inr_iff.2 (Sum.Lex.inl_lt_inl_iff.2 less))

theorem strictMono_number (c : Collation) :
    StrictMono fun x : ℚ => c.rank (.number (.finite x)) := fun _ _ less =>
  c.rank_number_lt.2 (Magnitude.finite_strictMono less)

end Collation

section

variable {d : Dialect} (sent : ∀ x, d.sent x = x)
include sent

/-- Cells and their entries are compared alike. -/
theorem Collation.test_entry {comparator : Comparator} {a b : Cell} {t : Truth}
    (h : d.test comparator a b = .ok t) :
    usual.test comparator a.entry b.entry = some t := by
  cases a with
  | null =>
    rw [d.test_null_left] at h
    obtain rfl := Except.ok.inj h
    rfl
  | truth x =>
    cases b with
    | null => obtain rfl := Except.ok.inj h; rfl
    | truth y =>
      obtain rfl := Except.ok.inj h
      exact congrArg some (relates_of_strictMono strictMono_truth comparator x y)
    | text y | number l y => nomatch h
  | text x =>
    cases b with
    | null => obtain rfl := Except.ok.inj h; rfl
    | text y =>
      obtain rfl := Except.ok.inj h
      exact congrArg some (relates_of_strictMono strictMono_text comparator x y)
    | truth y | number l y => nomatch h
  | number k x =>
    cases b with
    | null => obtain rfl := Except.ok.inj h; rfl
    | number l y =>
      have plain : d.comparable (k, x) (l, y) = (x, y) := by
        cases k <;> cases l <;> simp [Dialect.comparable, sent]
      obtain rfl := Except.ok.inj h
      rw [plain]
      exact congrArg some (relates_of_strictMono usual.strictMono_number comparator x y)
    | truth y | text y => nomatch h

/-- Cells that are found among some values are found among the entries of the values. -/
theorem Collation.tests_entry {cell : Cell} {values : List Value} {truths : List Truth}
    (h : (values.mapM fun value => do d.test .eq cell (← Cell.ofValue value)) = .ok truths) :
    (values.mapM fun value => do usual.test .eq cell.entry (← Entry.ofValue? value)) =
      some truths := by
  have each := Outcome.mapM_eq_ok_iff.1 h
  clear h
  induction each with
  | nil => rfl
  | cons first _ ih =>
    obtain ⟨bound, hbound, tested⟩ := Outcome.bind_eq_ok_iff.1 first
    rw [List.mapM_cons, ih, Cell.entry_of_ofValue hbound]
    show (usual.test .eq cell.entry bound.entry).bind _ = _
    rw [test_entry sent tested]
    rfl

end

/-! ### Conditions

A line has an entry under every name, while the columns of a row are known by the source they come
from. As the statements in question read one table, a name alone is enough, and a line that shows
what a row holds answers every condition as the row does. -/

/-- The line holds what the columns hold, by whichever source a column is reached. Of columns that
are not there nothing is asked. -/
def Line.Shows (line : Line) (env : Env) : Prop :=
  ∀ source name cell, env source name = .ok cell → line name = cell.entry

variable {d : Dialect} {line : Line} {env : Env}

/-- The entry of a term is that of its cell. -/
theorem Term.entryOf?_eq_cell {term : Term} {e : Entry} {cell : Cell} (shows : line.Shows env)
    (he : term.entryOf? line = some e) (hc : term.cell d [env] = .ok cell) : e = cell.entry := by
  cases term with
  | column source name =>
    obtain rfl := Option.some.inj he
    exact shows source name cell hc
  | bound value => exact Option.some.inj (he.symm.trans (Cell.entry_of_ofValue hc))
  | truth b =>
    obtain rfl := Option.some.inj he
    obtain rfl := Except.ok.inj hc
    rfl
  | null =>
    obtain rfl := Option.some.inj he
    obtain rfl := Except.ok.inj hc
    rfl
  | _ => nomatch he

/-- **What a condition says of a line is what it denotes**, if both accounts say something. -/
theorem Condition.verdict_eq_truth {condition : Condition} {t u : Truth}
    (sent : ∀ x, d.sent x = x) (shows : line.Shows env)
    (ht : condition.truth d [env] = .ok t) (hu : condition.verdict .usual line = some u) :
    u = t := by
  cases condition with
  | compare comparator left right =>
    obtain ⟨a, ha, ht⟩ := Outcome.bind_eq_ok_iff.1 ht
    obtain ⟨b, hb, ht⟩ := Outcome.bind_eq_ok_iff.1 ht
    obtain ⟨e, he, hu⟩ := Option.bind_eq_some_iff.1 hu
    obtain ⟨f, hf, hu⟩ := Option.bind_eq_some_iff.1 hu
    obtain rfl := left.entryOf?_eq_cell shows he ha
    obtain rfl := right.entryOf?_eq_cell shows hf hb
    exact Option.some.inj (hu.symm.trans (Collation.test_entry sent ht))
  | between term low high =>
    obtain ⟨a, ha, ht⟩ := Outcome.bind_eq_ok_iff.1 ht
    obtain ⟨l, hl, ht⟩ := Outcome.bind_eq_ok_iff.1 ht
    obtain ⟨above, habove, ht⟩ := Outcome.bind_eq_ok_iff.1 ht
    obtain ⟨h, hh, ht⟩ := Outcome.bind_eq_ok_iff.1 ht
    obtain ⟨below, hbelow, ht⟩ := Outcome.bind_eq_ok_iff.1 ht
    obtain rfl := Except.ok.inj ht
    obtain ⟨e, he, hu⟩ := Option.bind_eq_some_iff.1 hu
    obtain rfl := term.entryOf?_eq_cell shows he ha
    rw [Cell.entry_of_ofValue hl, Cell.entry_of_ofValue hh] at hu
    simp only [Option.bind_eq_bind, Option.bind_some, Collation.test_entry sent habove,
      Collation.test_entry sent hbelow] at hu
    exact (Option.some.inj hu).symm
  | oneOf term values =>
    obtain ⟨a, ha, ht⟩ := Outcome.bind_eq_ok_iff.1 ht
    obtain ⟨truths, htruths, ht⟩ := Outcome.bind_eq_ok_iff.1 ht
    obtain rfl := Except.ok.inj ht
    obtain ⟨e, he, hu⟩ := Option.bind_eq_some_iff.1 hu
    obtain rfl := term.entryOf?_eq_cell shows he ha
    rw [Collation.tests_entry sent htruths] at hu
    exact (Option.some.inj hu).symm
  | isNull term =>
    obtain ⟨a, ha, ht⟩ := Outcome.bind_eq_ok_iff.1 ht
    obtain rfl := Except.ok.inj ht
    obtain ⟨e, he, hu⟩ := Option.bind_eq_some_iff.1 hu
    obtain rfl := term.entryOf?_eq_cell shows he ha
    obtain rfl := Option.some.inj hu
    simp only [Cell.entry_eq_null_iff]
  | isNotNull term =>
    obtain ⟨a, ha, ht⟩ := Outcome.bind_eq_ok_iff.1 ht
    obtain rfl := Except.ok.inj ht
    obtain ⟨e, he, hu⟩ := Option.bind_eq_some_iff.1 hu
    obtain rfl := term.entryOf?_eq_cell shows he ha
    obtain rfl := Option.some.inj hu
    simp only [ne_eq, Cell.entry_eq_null_iff]
  | «matches» | either | intersects => nomatch hu

/-- A statement picks the lines of the rows of which all of its conditions hold. This is what lets
results about pages be read as results about the rows that statements denote. -/
theorem Query.keeps_eq_holdAll {σ : Type} {q : Query σ} {b : Bool} (sent : ∀ x, d.sent x = x)
    (shows : line.Shows env) (asked : Condition.holdAll d q.conditions env = .ok b)
    (said : ∀ condition ∈ q.conditions, ∃ t, condition.verdict .usual line = some t) :
    q.keeps .usual line = b := by
  obtain ⟨truths, answered, holds⟩ := Outcome.bind_eq_ok_iff.1 asked
  obtain rfl := Except.ok.inj holds
  have each := Outcome.mapM_eq_ok_iff.1 answered
  rw [keeps]
  clear asked answered holds
  generalize q.conditions = conditions at each said
  induction each with
  | nil => rfl
  | cons first _ ih =>
    obtain ⟨t, verdict⟩ := said _ List.mem_cons_self
    obtain rfl := Condition.verdict_eq_truth sent shows first verdict
    rw [List.all_cons, List.all_cons, ih fun condition hc => said condition (.tail _ hc), verdict]
    simp

end PropertyMarket
