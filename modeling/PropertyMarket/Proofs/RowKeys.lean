import Mathlib.Algebra.Order.Ring.Int
import Mathlib.Data.List.Induction
import Mathlib.Data.List.Nodup
import PropertyMarket.Proofs.Outcome
import PropertyMarket.Row

/-!
# Rows with keys of texts and integers

Rows at hand are found, put in order and grouped by the values of their key columns. Where these
are texts and integers, of one kind in each column, two keys are the same only if they are equal
and any two of them have an order. So none of the operations on keys fails: the rows of each key are
found by it, entries can be sorted, and rows are grouped into the rows of each key that occurs.

## Main definitions

* `Value.Alike`, `RowKey.Alike` — values that are both texts or both integers, and keys of such
* `Record.key` — the key of a row
* `Record.Typed`, `Record.Keyed` — rows whose key columns hold texts and integers, and rows that
  differ in them

## Main results

* `RowKey.checkOrder_eq` — keys that are alike can be sorted
* `RowKey.find?_eq_some`, `RowKey.find?_eq_none` — an entry is found by its key
* `RowKey.exists_groups` — rows are grouped into the rows of each key

## Implementation notes

Values are compared by the program in a way that fails for some pairs and calls some different
values the same. `Value.Alike` picks out the pairs for which neither happens. Everything that is
done with keys is then a fold over rows that never fails, and its result is described without
mentioning comparisons.
-/

namespace PropertyMarket

/-! ### Values

A text and an integer cannot be ordered, and an integer can be the same as a number of another kind.
Two texts, or two integers, are the same only if they are equal, and always have an order. -/

theorem Number.same_int (m n : ℤ) : (int m).same (int n) = decide (m = n) := by
  have order : compare? (int m) (int n) = some (compare m n) := by
    simp only [compare?, quotient?, Int.cast_ofNat_Int, Int.mul_one]
  rw [same, order, Bool.eq_iff_iff, decide_eq_true_iff, beq_iff_eq, Option.some_inj]
  exact compare_eq_iff_eq

/-- Values that are both texts or both integers. These are the kinds that the key columns of rows
hold. -/
inductive Value.Alike : Value → Value → Prop
  | texts (s t : String) : Alike (.text s) (.text t)
  | ints (m n : ℤ) : Alike (.int m) (.int n)

namespace Value.Alike

variable {v w : Value}

theorem same_iff (h : v.Alike w) : v.same w = true ↔ v = w := by
  cases h with
  | texts s t => simp [Value.same]
  | ints m n =>
    have same : (Value.int m).same (.int n) = decide (m = n) := Number.same_int m n
    simp [same]

theorem exists_isBefore (h : v.Alike w) : ∃ less, Value.isBefore false v w = .ok less := by
  cases h <;> exact ⟨_, rfl⟩

theorem isPart_left (h : v.Alike w) : RowKey.isPart v = true := by
  cases h <;> rfl

end Value.Alike

/-! ### Keys

Keys are compared item by item, so what holds of their items holds of them, as long as they have as
many items and these are alike. -/

namespace RowKey

/-- Keys whose values are alike, one by one, and which are equally long. -/
def Alike (a b : RowKey) : Prop := List.Forall₂ Value.Alike a b

variable {a b : RowKey}

theorem Alike.same_iff (h : Alike a b) : same a b = true ↔ a = b := by
  induction h with
  | nil => simp [same, Value.sameItems]
  | cons first _ ih =>
    rw [same] at ih ⊢
    rw [Value.sameItems, Bool.and_eq_true, first.same_iff, ih, List.cons.injEq]

theorem Alike.same_eq_false (h : Alike a b) (ne : a ≠ b) : same a b = false := by
  rw [← Bool.not_eq_true, h.same_iff]
  exact ne

theorem Alike.check_eq (h : Alike a b) : check a = .ok a := by
  have parts : a.all isPart = true := by
    induction h with
    | nil => rfl
    | cons first _ ih => rw [List.all_cons, first.isPart_left, ih, Bool.and_self]
  rw [check, if_pos parts]

theorem Alike.exists_compare (h : Alike a b) : ∃ o, compare a b = .ok o := by
  induction h with
  | nil => exact ⟨_, rfl⟩
  | cons first _ ih =>
    rw [compare]
    split
    · exact ih
    · obtain ⟨less, hless⟩ := first.exists_isBefore
      exact ⟨_, by rw [hless]; rfl⟩

/-! ### Order

Before entries are sorted it is checked that all of their keys can be compared. With keys that are
alike the check always passes. -/

theorem checkOrder_eq {keys : List RowKey} (alike : keys.Pairwise Alike) :
    checkOrder keys = .ok () := by
  induction keys with
  | nil => rfl
  | cons key keys ih =>
    obtain ⟨first, rest⟩ := List.pairwise_cons.1 alike
    have compared : keys.forM (fun other => discard (compare key other)) = .ok () := by
      clear ih rest alike
      induction keys with
      | nil => rfl
      | cons other keys ih =>
        obtain ⟨o, ho⟩ := (first other List.mem_cons_self).exists_compare
        rw [List.forM_eq_forM, List.forM_cons, ho]
        exact ih fun k hk => first k (List.mem_cons_of_mem other hk)
    rw [checkOrder, compared]
    exact ih rest

/-! ### Entries by key

Entries are kept in the order in which their keys first came up. Looking one up goes through the
list, and an update changes the entry of a key or puts a new one at the end. -/

section Entries

variable {α : Type} {key : RowKey} {entries : List (RowKey × α)}

theorem find?_eq_none (alike : ∀ e ∈ entries, Alike e.1 key) (h : ∀ e ∈ entries, e.1 ≠ key) :
    find? key entries = none := by
  rw [find?, List.find?_eq_none.2, Option.map_none]
  intro e he
  rw [(alike e he).same_eq_false (h e he)]
  exact Bool.false_ne_true

theorem find?_eq_some {x : α} (alike : ∀ e ∈ entries, Alike e.1 key)
    (unique : ∀ e ∈ entries, e.1 = key → e.2 = x) (mem : (key, x) ∈ entries) :
    find? key entries = some x := by
  have some_found : (entries.find? fun e => same e.1 key).isSome := by
    rw [List.find?_isSome]
    exact ⟨_, mem, (alike _ mem).same_iff.2 rfl⟩
  obtain ⟨e, he⟩ := Option.isSome_iff_exists.1 some_found
  have he_mem := List.mem_of_find?_eq_some he
  have he_same := List.find?_some he
  rw [find?, he, Option.map_some, unique e he_mem ((alike e he_mem).same_iff.1 he_same)]

/-- A new key comes last. -/
theorem update_of_new (change : Option α → α) (alike : ∀ e ∈ entries, Alike e.1 key)
    (new : ∀ e ∈ entries, e.1 ≠ key) :
    update key change entries = entries ++ [(key, change none)] := by
  induction entries with
  | nil => rfl
  | cons e entries ih =>
    have differs := (alike e List.mem_cons_self).same_eq_false (new e List.mem_cons_self)
    rw [update, differs, if_neg Bool.false_ne_true,
      ih (fun e he => alike e (List.mem_cons_of_mem _ he))
        (fun e he => new e (List.mem_cons_of_mem _ he)), List.cons_append]

/-- What belongs to a known key changes in its place. -/
theorem update_of_known (change : Option α → α) {keys : List RowKey} (value : RowKey → α)
    (alike : ∀ k ∈ keys, Alike k key) (nodup : keys.Nodup) (known : key ∈ keys) :
    update key change (keys.map fun k => (k, value k)) =
      keys.map fun k => (k, if same k key then change (some (value k)) else value k) := by
  induction keys with
  | nil => nomatch known
  | cons k keys ih =>
    obtain ⟨fresh, nodup⟩ := List.nodup_cons.1 nodup
    have alike_rest : ∀ k' ∈ keys, Alike k' key := fun k' hk' =>
      alike k' (List.mem_cons_of_mem k hk')
    rw [List.map_cons, update, List.map_cons]
    by_cases here : k = key
    · have same_here := (alike k List.mem_cons_self).same_iff.2 here
      rw [if_pos same_here, if_pos same_here]
      refine congrArg (List.cons _) (List.map_congr_left fun k' hk' => ?_)
      have differs : k' ≠ key := by
        rintro rfl
        exact fresh (here ▸ hk')
      rw [(alike_rest k' hk').same_eq_false differs, if_neg Bool.false_ne_true]
    · have differs := (alike k List.mem_cons_self).same_eq_false here
      have later : key ∈ keys := (List.mem_cons.1 known).resolve_left fun h => here h.symm
      rw [differs, if_neg Bool.false_ne_true, if_neg Bool.false_ne_true,
        ih alike_rest nodup later]

section Groups

variable {β : Type} {keyOf : β → RowKey} {rows : List β} {keys : List RowKey} {row : β}

/-- The rows of some keys. -/
def groupsOf (keyOf : β → RowKey) (keys : List RowKey) (rows : List β) :
    List (RowKey × List β) :=
  keys.map fun k => (k, rows.filter fun r => same k (keyOf r))

theorem filter_same_append (keyOf : β → RowKey) (k : RowKey) (rows : List β) (row : β) :
    (rows ++ [row]).filter (fun r => same k (keyOf r)) =
      rows.filter (fun r => same k (keyOf r)) ++ if same k (keyOf row) then [row] else [] := by
  rw [List.filter_append, List.filter_singleton]
  cases same k (keyOf row) <;> rfl

/-- A row of a known key joins its group. -/
theorem update_groupsOf_known (alike : ∀ k ∈ keys, Alike k (keyOf row)) (nodup : keys.Nodup)
    (known : keyOf row ∈ keys) :
    update (keyOf row) (fun group => group.getD [] ++ [row]) (groupsOf keyOf keys rows) =
      groupsOf keyOf keys (rows ++ [row]) := by
  rw [groupsOf, update_of_known _ _ alike nodup known, groupsOf]
  refine List.map_congr_left fun k _ => ?_
  rw [filter_same_append]
  split <;> simp

/-- A row of a new key has a group of its own. -/
theorem update_groupsOf_new (alike : ∀ k ∈ keys, Alike k (keyOf row))
    (alike_rows : ∀ r ∈ rows, Alike (keyOf row) (keyOf r)) (self : Alike (keyOf row) (keyOf row))
    (among : ∀ r ∈ rows, keyOf r ∈ keys) (new : keyOf row ∉ keys) :
    update (keyOf row) (fun group => group.getD [] ++ [row]) (groupsOf keyOf keys rows) =
      groupsOf keyOf (keys ++ [keyOf row]) (rows ++ [row]) := by
  have entries : ∀ e ∈ groupsOf keyOf keys rows, Alike e.1 (keyOf row) ∧ e.1 ≠ keyOf row := by
    intro e he
    obtain ⟨k, hk, rfl⟩ := List.mem_map.1 he
    exact ⟨alike k hk, fun h => new (h ▸ hk)⟩
  have own : rows.filter (fun r => same (keyOf row) (keyOf r)) = [] := by
    rw [List.filter_eq_nil_iff]
    intro r hr sameKey
    exact new ((alike_rows r hr).same_iff.1 sameKey ▸ among r hr)
  rw [update_of_new _ (fun e he => (entries e he).1) fun e he => (entries e he).2, groupsOf,
    groupsOf, List.map_append, List.map_singleton]
  refine congrArg₂ _ (List.map_congr_left fun k hk => ?_) ?_
  · rw [filter_same_append, (alike k hk).same_eq_false fun h => new (h ▸ hk)]
    simp
  · rw [filter_same_append, self.same_iff.2 rfl, own]
    rfl

/-- Rows are grouped into the rows of each key, in their order. The keys are those that occur, each
once, and none of the rows is lost. -/
theorem exists_groups (keyOf : β → RowKey)
    (alike : ∀ r ∈ rows, ∀ r' ∈ rows, Alike (keyOf r) (keyOf r')) :
    ∃ keys : List RowKey, keys.Nodup ∧ (∀ k, k ∈ keys ↔ ∃ r ∈ rows, keyOf r = k) ∧
      rows.foldl (fun groups r => update (keyOf r) (fun group => group.getD [] ++ [r]) groups) [] =
        groupsOf keyOf keys rows := by
  induction rows using List.reverseRecOn with
  | nil => exact ⟨[], List.nodup_nil, by simp, rfl⟩
  | append_singleton rows row ih =>
    obtain ⟨keys, nodup, mem_keys, groups⟩ := ih fun r hr r' hr' =>
      alike r (List.mem_append_left _ hr) r' (List.mem_append_left _ hr')
    have alike_row : ∀ k ∈ keys, Alike k (keyOf row) := by
      intro k hk
      obtain ⟨r, hr, rfl⟩ := (mem_keys k).1 hk
      exact alike r (List.mem_append_left _ hr) row (by simp)
    have mem_iff (k : RowKey) : (∃ r ∈ rows ++ [row], keyOf r = k) ↔ k ∈ keys ∨ k = keyOf row := by
      rw [mem_keys]
      simp [or_and_right, exists_or, eq_comm]
    rw [List.foldl_append, groups, List.foldl_cons, List.foldl_nil]
    by_cases known : keyOf row ∈ keys
    · refine ⟨keys, nodup, fun k => ?_, update_groupsOf_known alike_row nodup known⟩
      rw [mem_iff]
      exact ⟨.inl, fun h => h.elim id fun h => h ▸ known⟩
    · have alike_rows : ∀ r ∈ rows, Alike (keyOf row) (keyOf r) := fun r hr =>
        alike row (by simp) r (List.mem_append_left _ hr)
      have self : Alike (keyOf row) (keyOf row) := alike row (by simp) row (by simp)
      refine ⟨keys ++ [keyOf row], ?_, fun k => ?_, update_groupsOf_new alike_row alike_rows self
        (fun r hr => (mem_keys _).2 ⟨r, hr, rfl⟩) known⟩
      · exact List.nodup_append.2 ⟨nodup, List.nodup_singleton _, fun k hk k' hk' same =>
          known (List.mem_singleton.1 hk' ▸ same ▸ hk)⟩
      · rw [mem_iff, List.mem_append, List.mem_singleton]

end Groups

end Entries

end RowKey

/-! ### Rows

How the key of a row is read off the row, and what it means for rows to have keys of texts and
integers. A column that is missing would make the reading fail, so it is asked that none is. -/

namespace Record

/-- The values of some columns of a row, where a column that is missing counts as null. -/
def key (columns : List String) (row : Record) : RowKey := columns.map row.getD

theorem require_eq {row : Record} {name : String} {value : Value}
    (h : row.get? name = some value) : row.require name = .ok value := by
  rw [require, h]

theorem getD_eq {row : Record} {name : String} {value : Value} (h : row.get? name = some value) :
    row.getD name = value := by
  rw [getD, h]
  rfl

/-- The text in a column. -/
def text (row : Record) (name : String) : String :=
  match row.getD name with
  | .text s => s
  | _ => ""

/-- The texts in some columns. -/
def texts (columns : List String) (row : Record) : List String := columns.map row.text

/-- The integer in a column. -/
def int (row : Record) (name : String) : ℤ :=
  match row.getD name with
  | .int n => n
  | _ => 0

/-- The year of a row. -/
def year (row : Record) : ℤ := row.int "year"

/-- Rows with texts and integers in their key columns, as those of locations and of periods are;
each row has all of them. -/
structure Typed (texts ints : List String) (rows : List Record) : Prop where
  hasText : ∀ row ∈ rows, ∀ k ∈ texts, ∃ s, row.get? k = some (.text s)
  hasInt : ∀ row ∈ rows, ∀ k ∈ ints, ∃ n, row.get? k = some (.int n)

/-- Rows with texts and integers in their key columns, in which any two of them differ. -/
structure Keyed (texts ints : List String) (rows : List Record) : Prop where
  hasText : ∀ row ∈ rows, ∀ k ∈ texts, ∃ s, row.get? k = some (.text s)
  hasInt : ∀ row ∈ rows, ∀ k ∈ ints, ∃ n, row.get? k = some (.int n)
  unique : rows.Pairwise fun a b => key (texts ++ ints) a ≠ key (texts ++ ints) b

section Rows

variable {texts ints columns : List String} {rows : List Record} {row other : Record}

namespace Typed

theorem get?_text (h : Typed texts ints rows) (hrow : row ∈ rows) {k : String} (hk : k ∈ texts) :
    row.get? k = some (.text (row.text k)) := by
  obtain ⟨s, hs⟩ := h.hasText row hrow k hk
  rw [text, getD_eq hs, hs]

theorem get?_int (h : Typed texts ints rows) (hrow : row ∈ rows) {k : String} (hk : k ∈ ints) :
    row.get? k = some (.int (row.int k)) := by
  obtain ⟨n, hn⟩ := h.hasInt row hrow k hk
  rw [int, getD_eq hn, hn]

theorem get?_eq (h : Typed texts ints rows) (hrow : row ∈ rows) {k : String}
    (hk : k ∈ texts ++ ints) : row.get? k = some (row.getD k) := by
  obtain hk | hk := List.mem_append.1 hk
  · rw [getD_eq (h.get?_text hrow hk), h.get?_text hrow hk]
  · rw [getD_eq (h.get?_int hrow hk), h.get?_int hrow hk]

/-- Two rows are alike in a key column. -/
theorem alike_getD (h : Typed texts ints rows) (hrow : row ∈ rows) (hother : other ∈ rows)
    {k : String} (hk : k ∈ texts ++ ints) : (row.getD k).Alike (other.getD k) := by
  obtain hk | hk := List.mem_append.1 hk
  · rw [getD_eq (h.get?_text hrow hk), getD_eq (h.get?_text hother hk)]
    exact .texts _ _
  · rw [getD_eq (h.get?_int hrow hk), getD_eq (h.get?_int hother hk)]
    exact .ints _ _

/-- The texts of a key. -/
theorem key_eq (h : Typed texts ints rows) (hrow : row ∈ rows) :
    row.key texts = (row.texts texts).map .text := by
  rw [Record.texts, List.map_map]
  exact List.map_congr_left fun _ hk => getD_eq (h.get?_text hrow hk)

theorem alike (h : Typed texts ints rows) (within : columns ⊆ texts ++ ints) (hrow : row ∈ rows)
    (hother : other ∈ rows) : RowKey.Alike (row.key columns) (other.key columns) := by
  rw [RowKey.Alike, key, key, List.forall₂_map_left_iff, List.forall₂_map_right_iff,
    List.forall₂_same]
  exact fun k hk => h.alike_getD hrow hother (within hk)

/-- Two keys are the same if their texts are. -/
theorem same_key (h : Typed texts ints rows) (hrow : row ∈ rows) (hother : other ∈ rows) :
    RowKey.same (row.key texts) (other.key texts) =
      decide (row.texts texts = other.texts texts) := by
  have injective : Function.Injective Value.text := fun s t => Value.text.inj
  rw [Bool.eq_iff_iff, (h.alike (List.subset_append_left _ _) hrow hother).same_iff,
    decide_eq_true_iff, h.key_eq hrow, h.key_eq hother, (List.map_injective_iff.2 injective).eq_iff]

theorem ofRow_eq (h : Typed texts ints rows) (within : columns ⊆ texts ++ ints)
    (hrow : row ∈ rows) : RowKey.ofRow columns row = .ok (row.key columns) :=
  Outcome.mapM_eq_ok_map fun _ hk => require_eq (h.get?_eq hrow (within hk))

end Typed

theorem Keyed.typed (h : Keyed texts ints rows) : Typed texts ints rows := ⟨h.hasText, h.hasInt⟩

/-- A row is known by its key. -/
theorem Keyed.eq_of_key_eq (h : Keyed texts ints rows) (hrow : row ∈ rows) (hother : other ∈ rows)
    (same : row.key (texts ++ ints) = other.key (texts ++ ints)) : row = other :=
  List.inj_on_of_nodup_map (List.pairwise_map.2 h.unique) hrow hother same

end Rows

end Record

end PropertyMarket
