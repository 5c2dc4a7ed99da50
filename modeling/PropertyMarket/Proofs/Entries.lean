import Mathlib.Data.Sum.Order
import Mathlib.Order.Lex
import PropertyMarket.Proofs.Meaning
import PropertyMarket.Proofs.Pages

/-!
# What a read of one table gives

A statement over one table that neither joins nor groups picks lines of the table, sorts them, and
gives those of one page. What it gives is not determined by what the table holds: lines of equal
sort keys are given in any order, and in another one the next time. So what is defined here is not
the answer of the store but whether something can be its answer.

How texts are sorted, and where a missing entry comes, is left open too: that is a `Collation`. All
of it only matters through the order that it puts entries in, and which numbers are greater is not
left open.

## Main definitions

* `Magnitude`, `Entry`, `Line` — what a table holds, with infinite numbers and NaN
* `Collation`, `Collation.test` — an order of all entries, and comparisons
* `Condition.verdict`, `Query.keeps` — the lines that a statement picks
* `Query.OfLines` — a statement is one of those that this is about
* `Query.place` — where a line is sorted
* `Query.Answers` — the store can give some lines for a statement
* `ListedOnce` — the answers to the pages of a read have each line once

## Main results

* `Query.listedOnce_iff` — pages have each line once exactly if no two lines are sorted alike

## Implementation notes

A line has an entry under any name; a table says which names matter. Only conditions on columns
are read: a pattern, an outline or an alternative has no verdict here, and a sort by anything but a
column is passed over. Reads of precomputed relations have none of these. As there is only one
table, it does not matter by which name a column is reached.

What a statement denotes elsewhere is a list of rows without an order, and all of their numbers are
finite. Here each line is taken as a whole, since a read shows all columns of its table. Wherever
both say whether a condition is true, `Condition.verdict_eq_truth` has it that they say the same.
-/

namespace PropertyMarket

/-! ### Entries

A line holds more than a row that a statement denotes: its numbers may be infinite or NaN, as a
column in double precision may, and it is sorted as a whole. The kinds of numbers do not matter
here, since nothing is computed with them. -/

/-- The size of a number as numbers are sorted: below and above all others there are infinite ones,
and NaN is above all of them. -/
abbrev Magnitude : Type := WithTop (WithTop (WithBot ℚ))

namespace Magnitude

/-- The size of a finite number: above the infinite one that is negative, and below the other
two. -/
def finite (x : ℚ) : Magnitude := ((x : WithBot ℚ) : WithTop (WithBot ℚ))

theorem finite_inj {x y : ℚ} : finite x = finite y ↔ x = y := by
  rw [finite, finite, WithTop.coe_inj, WithTop.coe_inj, WithBot.coe_inj]

/-- The size of a binary64 number. -/
def ofDouble : Double → Magnitude
  | .nan => ⊤
  | .infinite true => ((⊥ : WithBot ℚ) : WithTop (WithBot ℚ))
  | .infinite false => (⊤ : WithTop (WithBot ℚ))
  | x => finite x.value

end Magnitude

/-- What a table holds in one column of one line: nothing, the size of a number, or a text. Two
numbers of one size are one entry, whatever they are stored as. -/
inductive Entry where
  | null
  | truth (value : Bool)
  | text (value : String)
  | number (size : Magnitude)
  deriving DecidableEq

/-- An integer. -/
def Entry.int (n : ℤ) : Entry := .number (.finite n)

theorem Entry.int_inj {m n : ℤ} : int m = int n ↔ m = n := by
  rw [int, int, number.injEq, Magnitude.finite_inj, Int.cast_inj]

/-- The entry that a value is compared as, unless it is a collection. -/
def Entry.ofValue? : Value → Option Entry
  | .null => some .null
  | .bool b => some (.truth b)
  | .text s => some (.text s)
  | .int n => some (.int n)
  | .double x => some (.number (.ofDouble x))
  | .decimal d => some (.number (.finite d.toRat))
  | .list _ | .record _ => none

/-- The entry is one of a type. What dates and outlines are is left open. A text is at most as long
as its column allows, and a column of integers holds whole numbers only. -/
def Entry.HasType : Entry → ColumnType → Prop
  | .number x, .integer => ∃ n : ℤ, x = .finite n
  | .number _, .float | .number _, .numeric _ _ | .number _, .number => True
  | .text s, .varchar length => s.length ≤ length
  | _, .date | _, .multiPolygon => True
  | _, _ => False

/-- A line of a table: what it holds in each column. A line is a function of names and not a list,
since conditions and sorts reach columns by name. -/
abbrev Line := String → Entry

/-- The line can be one of the table: each column holds an entry of its type, or nothing if it is
nullable. -/
def Table.Admits (t : Table) (line : Line) : Prop :=
  ∀ column ∈ t.columns, (column.nullable = true ∧ line column.name = .null) ∨
    (line column.name).HasType column.type

/-- A line can be one of the table whatever the integer in one of its columns of integers is. -/
theorem Table.Admits.update_int {t : Table} {line : Line} {name : String} (h : t.Admits line)
    (typed : ∀ column ∈ t.columns, column.name = name → column.type = .integer) (n : ℤ) :
    t.Admits (Function.update line name (.int n)) := by
  intro column hc
  by_cases same : column.name = name
  · right
    rw [same, Function.update_self, typed column hc same]
    exact ⟨n, rfl⟩
  · rw [Function.update_of_ne same]
    exact h column hc

/-- The line of a commune in a year, with all other numbers the same. Such lines are told apart by
the commune and the year alone. -/
def Line.ofCommune (code : String) (year : ℤ) : Line := fun name =>
  if name = "insee_code" then .text code else if name = "year" then .int year else .int 1

theorem Table.admits_ofCommune {t : Table} {code : String} (length : code.length ≤ 5) (year : ℤ)
    (shaped : ∀ column ∈ t.columns, (column.name = "insee_code" ∧ column.type = .varchar 5) ∨
      (column.name ≠ "insee_code" ∧ (column.type = .integer ∨ column.type = .float))) :
    t.Admits (.ofCommune code year) := by
  intro column hc
  right
  obtain ⟨name, type⟩ | ⟨name, type⟩ := shaped column hc
  · rw [name, type]
    exact length
  · have number : ∃ n, Line.ofCommune code year column.name = .int n := by
      rw [Line.ofCommune, if_neg name]
      split
      · exact ⟨_, rfl⟩
      · exact ⟨_, rfl⟩
    obtain ⟨n, number⟩ := number
    rw [number]
    obtain type | type := type <;> rw [type]
    · exact ⟨n, rfl⟩
    · trivial

/-! ### Order

Which text comes first, and whether missing entries come last, differs from store to store. The
results hold of every order that sorts numbers by their size, and this is all that a collation
promises. -/

/-- In which order a store has what it holds. The order is total, so that two entries which sort
alike are the same. -/
structure Collation where
  order : LinearOrder Entry
  /-- Numbers are sorted by their size. -/
  number_le : ∀ x y : Magnitude, order.le (.number x) (.number y) ↔ x ≤ y

namespace Collation

variable (c : Collation)

/-- Entries in the order of a store. The type depends on the collation only to carry its order. -/
def Ranked (_ : Collation) : Type := Entry

instance : LinearOrder c.Ranked := c.order

/-- An entry in the order of a store. -/
def rank (e : Entry) : c.Ranked := e

theorem rank_injective : Function.Injective c.rank := Function.injective_id

theorem rank_number_le {x y : Magnitude} : c.rank (.number x) ≤ c.rank (.number y) ↔ x ≤ y :=
  c.number_le x y

theorem rank_number_lt {x y : Magnitude} : c.rank (.number x) < c.rank (.number y) ↔ x < y := by
  rw [← not_le, rank_number_le, not_le]

/-- What a comparison says of two entries of one kind. -/
def relates (comparator : Comparator) (a b : Entry) : Truth :=
  .ofBool (comparator.accepts (compare (c.rank a) (c.rank b)))

/-- The comparison of two entries. It is unknown if one of them is missing, and there is none of
entries of two kinds. -/
def test (comparator : Comparator) : Entry → Entry → Option Truth
  | .null, _ | _, .null => some .unknown
  | .truth a, .truth b => some (c.relates comparator (.truth a) (.truth b))
  | .text s, .text t => some (c.relates comparator (.text s) (.text t))
  | .number x, .number y => some (c.relates comparator (.number x) (.number y))
  | _, _ => none

/-- Numbers are compared by their size. -/
theorem test_number (comparator : Comparator) (x y : Magnitude) :
    ∃ b, c.test comparator (.number x) (.number y) = some (.ofBool b) ∧
      (b = true ↔ comparator.Relates x y) := by
  refine ⟨_, rfl, (Comparator.accepts_compare comparator _ _).trans ?_⟩
  cases comparator with
  | eq => exact c.rank_injective.eq_iff.trans (by rw [Entry.number.injEq]; rfl)
  | ne => exact not_congr (c.rank_injective.eq_iff.trans (by rw [Entry.number.injEq]))
  | gt => exact c.rank_number_lt
  | ge => exact c.rank_number_le
  | lt => exact c.rank_number_lt
  | le => exact c.rank_number_le

theorem test_text_eq (s t : String) :
    ∃ b, c.test .eq (.text s) (.text t) = some (.ofBool b) ∧ (b = true ↔ s = t) := by
  refine ⟨_, rfl, (Comparator.accepts_compare .eq _ _).trans ?_⟩
  exact c.rank_injective.eq_iff.trans (by rw [Entry.text.injEq])

end Collation

/-- Where an entry comes if missing ones come last and texts are sorted by their characters. -/
def Entry.usualPlace : Entry → Magnitude ⊕ₗ Bool ⊕ₗ String ⊕ₗ Unit
  | .number x => Sum.inlₗ x
  | .truth b => Sum.inrₗ (Sum.inlₗ b)
  | .text s => Sum.inrₗ (Sum.inrₗ (Sum.inlₗ s))
  | .null => Sum.inrₗ (Sum.inrₗ (Sum.inrₗ ()))

theorem Entry.usualPlace_injective : Function.Injective usualPlace := by
  intro a b h
  cases a <;> cases b <;> simp_all [usualPlace]

/-- The collation in which missing entries come last, and texts are sorted by their characters. It
shows that collations exist, and it is the one under which conditions are compared with what they
denote. -/
@[reducible]
def Collation.usual : Collation where
  order := LinearOrder.lift' Entry.usualPlace Entry.usualPlace_injective
  number_le _ _ := Sum.Lex.inl_le_inl_iff

/-! ### Picking lines

A condition on the columns of a line has a verdict, and a line is picked if all verdicts are true. A
comparison of a column with a bound value is the usual case, and the lemmas give its verdict once
the entries on both sides are known. -/

/-- What a column holds, or a value that is given. -/
def Term.entryOf? (line : Line) : Term → Option Entry
  | .column _ name => some (line name)
  | .bound value => Entry.ofValue? value
  | .truth b => some (.truth b)
  | .null => some .null
  | _ => none

/-- What a condition says of a line, if it is one on columns with bound values; nothing if it is of
another form. -/
def Condition.verdict (c : Collation) (line : Line) : Condition → Option Truth
  | .compare comparator left right => do
    c.test comparator (← left.entryOf? line) (← right.entryOf? line)
  | .between term low high => do
    let entry ← term.entryOf? line
    return (← c.test .ge entry (← Entry.ofValue? low)).and
      (← c.test .le entry (← Entry.ofValue? high))
  | .oneOf term values => do
    let entry ← term.entryOf? line
    return (← values.mapM fun value => do c.test .eq entry (← Entry.ofValue? value)).foldr
      Truth.or .no
  | .isNull term => do return .ofBool ((← term.entryOf? line) = .null)
  | .isNotNull term => do return .ofBool ((← term.entryOf? line) ≠ .null)
  | _ => none

namespace Condition

variable {c : Collation} {line : Line} {term : Term} {e : Entry}

theorem verdict_compare (comparator : Comparator) {value : Value} {bound : Entry}
    (ht : term.entryOf? line = some e) (hb : Entry.ofValue? value = some bound) :
    (compare comparator term (.bound value)).verdict c line = c.test comparator e bound := by
  show (do c.test comparator (← term.entryOf? line) (← Entry.ofValue? value)) = _
  rw [ht, hb]
  rfl

theorem verdict_between {low high : Value} {least most : Entry} {above below : Truth}
    (ht : term.entryOf? line = some e) (hl : Entry.ofValue? low = some least)
    (hh : Entry.ofValue? high = some most) (habove : c.test .ge e least = some above)
    (hbelow : c.test .le e most = some below) :
    (between term low high).verdict c line = some (above.and below) := by
  show (do
    let entry ← term.entryOf? line
    let t ← c.test .ge entry (← Entry.ofValue? low)
    let u ← c.test .le entry (← Entry.ofValue? high)
    return t.and u) = _
  simp only [ht, hl, hh, habove, hbelow, Option.bind_eq_bind, Option.bind_some]
  rfl

/-- A text is one of some texts. -/
theorem verdict_oneOf {s : String} (texts : List String)
    (ht : term.entryOf? line = some (.text s)) :
    ∃ b, (oneOf term (texts.map .text)).verdict c line = some (.ofBool b) ∧
      (b = true ↔ s ∈ texts) := by
  let ask (value : Value) : Option Truth := (Entry.ofValue? value).bind (c.test .eq (.text s))
  -- One text after the other, each of which is the one of the line or is not.
  have each (texts : List String) : ∃ b truths, (texts.map Value.text).mapM ask = some truths ∧
      truths.foldr Truth.or .no = .ofBool b ∧ (b = true ↔ s ∈ texts) := by
    induction texts with
    | nil => exact ⟨false, [], rfl, rfl, by simp⟩
    | cons t texts ih =>
      obtain ⟨b, truths, asked, joined, said⟩ := ih
      obtain ⟨b', tested, same⟩ := c.test_text_eq s t
      have first : ask (.text t) = some (.ofBool b') := tested
      refine ⟨b' || b, .ofBool b' :: truths, ?_, ?_, ?_⟩
      · rw [List.map_cons, List.mapM_cons, first, asked]
        rfl
      · rw [List.foldr_cons, joined]
        cases b' <;> cases b <;> rfl
      · rw [Bool.or_eq_true, same, said, List.mem_cons]
  obtain ⟨b, truths, asked, joined, said⟩ := each texts
  refine ⟨b, ?_, said⟩
  show (term.entryOf? line).bind (fun entry => ((texts.map Value.text).mapM fun value =>
    (Entry.ofValue? value).bind (c.test .eq entry)).bind fun truths =>
      some (truths.foldr Truth.or .no)) = _
  rw [ht, Option.bind_some]
  show ((texts.map Value.text).mapM ask).bind _ = _
  rw [asked]
  exact congrArg some joined

end Condition

/-- Does a statement pick a line? A condition that has no verdict, or an unknown one, drops the
line. -/
def Query.keeps {σ : Type} (c : Collation) (q : Query σ) (line : Line) : Bool :=
  q.conditions.all fun condition => condition.verdict c line = some .yes

/-- The lines that a statement picks. -/
def Query.selected {σ : Type} (c : Collation) (q : Query σ) (content : List Line) : List Line :=
  content.filter (q.keeps c)

/-! ### Sorting lines

A sort key compares one column, upwards or downwards. Each key sends an entry to a place in a linear
order, and a line to the list of its places, so that sorting by several columns is sorting by one
key in the lexicographic order. -/

/-- The order in which one column is sorted, upwards or downwards. The sum only keeps the two
directions apart: places of one column are all on one side of it. -/
abbrev Collation.Placed (c : Collation) : Type := c.Ranked ⊕ₗ c.Rankedᵒᵈ

/-- Where an entry is sorted in an order: ascending or descending, and where it holds nothing as the
store puts nulls. -/
def SortOrder.place (c : Collation) : SortOrder → Entry → c.Placed
  | .asc, e => Sum.inlₗ (c.rank e)
  | .desc, e => Sum.inrₗ (OrderDual.toDual (c.rank e))

theorem SortOrder.place_injective (c : Collation) (o : SortOrder) :
    Function.Injective (o.place c) := by
  cases o with
  | asc => exact Sum.inl_injective
  | desc => exact Sum.inr_injective

/-- The column that is sorted by, and in which order. -/
def SortKey.column? : SortKey → Option (String × SortOrder)
  | ⟨.term (.column _ name), order⟩ => some (name, order)
  | _ => none

namespace Query

variable {σ : Type} (c : Collation) (q : Query σ)

/-- The columns that are sorted by. -/
def sortColumns : List (String × SortOrder) := q.sort.filterMap SortKey.column?

/-- A statement shows whole lines of a table, without grouping them, and sorts them by columns. -/
structure OfLines (q : Statement) (table : Table) : Prop where
  outputs : q.outputs = Output.ofTable table
  source : q.source = .ofTable table
  groups : q.groups = []
  sort : ∀ k ∈ q.sort, k.column?.isSome = true

/-- Where a line is sorted: by the first column, and by each other one among lines that are alike in
those before it. -/
def place (line : Line) : List c.Placed :=
  q.sortColumns.map fun column => column.2.place c (line column.1)

theorem place_eq_iff {a b : Line} :
    q.place c a = q.place c b ↔ ∀ column ∈ q.sortColumns, a column.1 = b column.1 := by
  rw [place, place, List.map_inj_left]
  exact forall₂_congr fun column _ => (column.2.place_injective c).eq_iff

/-- Lines are sorted apart if any two of them differ in one of the columns. -/
theorem nodup_place_iff {lines : List Line} : (lines.map (q.place c)).Nodup ↔
    lines.Pairwise fun a b => ∃ column ∈ q.sortColumns, a column.1 ≠ b column.1 := by
  rw [List.Nodup, List.pairwise_map]
  have differ (a b : Line) : q.place c a ≠ q.place c b ↔
      ∃ column ∈ q.sortColumns, a column.1 ≠ b column.1 := by
    rw [ne_eq, place_eq_iff]
    push Not
    rfl
  simp only [differ]

/-! ### Answers

The lines that are picked are arranged in some order that respects the sort keys, and a page is cut
out of it. For the next page the store may arrange them differently where they are sorted alike,
which is how a line can appear twice or not at all. -/

/-- The lines of the page that is asked for. -/
def cut (sorted : List Line) : List Line :=
  let rest := sorted.drop (q.offset.getD 0).toNat
  match q.limit with
  | some n => rest.take n.toNat
  | none => rest

/-- The store can give some lines for a statement, if the table holds the content. The arrangement
is chosen anew for each statement. -/
def Answers (content answer : List Line) : Prop :=
  ∃ sorted, Arranges (q.place c) (q.selected c content) sorted ∧ answer = q.cut sorted

/-- A statement for one page. -/
def paged (size number : ℕ) : Query σ :=
  { q with limit := some size, offset := some (number * size : ℕ) }

theorem answers_paged {content answer : List Line} {size number : ℕ} :
    (q.paged size number).Answers c content answer ↔
      ∃ sorted, Arranges (q.place c) (q.selected c content) sorted ∧
        answer = page size sorted number :=
  Iff.rfl

end Query

/-- The pages of a read have each line once: the store has an answer to every page, and whatever
its answers are, from the first page on they are the lines that are read, in some order. -/
structure ListedOnce (c : Collation) (content : List Line) (pages : ℕ → Except Fault Statement)
    (size : ℕ) (lines : List Line) : Prop where
  answered : ∀ i, ∃ q answer, pages i = .ok q ∧ q.Answers c content answer
  perm : ∀ answers : ℕ → List Line,
    (∀ i, ∃ q, pages i = .ok q ∧ q.Answers c content (answers i)) →
    ∀ n, lines.length ≤ n * size → ((List.range n).flatMap answers).Perm lines

/-- **Pages have each line once exactly if no two lines are sorted alike.** For the one direction
the arrangement is then unique; for the other, two lines that are sorted alike are exchanged between
the pages. -/
theorem Query.listedOnce_iff (c : Collation) (q : Statement) {content : List Line}
    {pages : ℕ → ℕ → Except Fault Statement}
    (paged : ∀ size number, pages size number = .ok (q.paged size number))
    (nodup : content.Nodup) :
    (∀ size > 0, ListedOnce c content (pages size) size (q.selected c content)) ↔
      ((q.selected c content).map (q.place c)).Nodup := by
  obtain rfl : pages = fun size number => .ok (q.paged size number) := funext₂ paged
  have distinct : (q.selected c content).Nodup := nodup.filter _
  rw [← pages_perm_iff distinct]
  refine forall₂_congr fun size _ => ⟨fun once pages arranges n enough => ?_, fun perm => ?_⟩
  · exact once.perm pages (fun i => ⟨_, rfl, (q.answers_paged c).2 (arranges i)⟩) n enough
  · refine ⟨fun i => ?_, fun answers given n enough => perm answers (fun i => ?_) n enough⟩
    · obtain ⟨sorted, arranged⟩ := exists_arranges (q.place c) (q.selected c content)
      exact ⟨_, _, rfl, (q.answers_paged c).2 ⟨sorted, arranged, rfl⟩⟩
    · obtain ⟨_, hpage, answer⟩ := given i
      obtain rfl := Except.ok.inj hpage
      exact (q.answers_paged c).1 answer

end PropertyMarket
