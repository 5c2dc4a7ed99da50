import Mathlib.Data.Finset.Sort
import Mathlib.Data.List.Lex
import Mathlib.Data.Prod.Lex
import Mathlib.Data.String.Basic
import PropertyMarket.Proofs.RowKeys

/-!
# Keys in order

The key of a row stands for a place: the texts of its location, or a location and a year. Keys of as
many texts are compared as the texts are, one after the other, and what follows the texts only
matters where they are the same. So keys are in the order of their places, and what is grouped by
key and then sorted is a function of the rows of each place: it is listed place by place, in their
order, whatever the order of the rows.

Rows that are written under their keys one after the other leave the last one of each place.

## Main definitions

* `RowKey.Represents` — keys that are in the order of the places they stand for
* `RowKey.placesOf` — the places of rows, each once and in order
* `RowKey.rowsAt`, `RowKey.lastAt?` — the rows of a place, and the last one of them

## Main results

* `RowKey.compare_texts` — texts are compared before what follows them
* `RowKey.Represents.foldl_replace_perm` — what is found under a key is the last row of its place
* `RowKey.Represents.sort_eq_of_perm` — entries are sorted into the order of their places

## Implementation notes

The model compares keys item by item, and fails where two items are of different kinds. Places are
ordered by Mathlib's lexicographic order instead, which is total. `RowKey.Represents` is the bridge:
on the places of some rows, the keys are all alike and compare as the places do. It is proved twice,
for locations and for dated locations, and everything behind it is proved once.

Grouping keeps its entries in the order in which their keys come up, so results about it are stated
up to permutation. The order only becomes definite by sorting.
-/

namespace PropertyMarket

namespace RowKey

/-! ### Texts

All keys of some rows start with as many texts, those of the location. So two keys are compared in
their texts first, and in what follows only if these are the same. -/

/-- The same texts leave it to what follows them. -/
theorem compare_texts_self (s : List String) (a b : RowKey) :
    compare (s.map .text ++ a) (s.map .text ++ b) = compare a b := by
  induction s with
  | nil => rfl
  | cons x s ih =>
    have same : (Value.text x).same (.text x) = true := by simp [Value.same]
    rw [List.map_cons, List.cons_append, List.cons_append, compare, if_pos same, ih]

/-- Texts are compared before what follows them, so a key that begins with as many texts as another
one is ordered by them first. -/
theorem compare_texts {s t : List String} (a b : RowKey) (length : s.length = t.length)
    (differ : s ≠ t) :
    compare (s.map .text ++ a) (t.map .text ++ b) = .ok (if s < t then .lt else .gt) := by
  induction s generalizing t with
  | nil => exact absurd (List.length_eq_zero_iff.1 length.symm).symm differ
  | cons x s ih =>
    cases t with
    | nil => nomatch length
    | cons y t =>
      rw [List.map_cons, List.map_cons, List.cons_append, List.cons_append, compare]
      obtain rfl | first := eq_or_ne x y
      · have same : (Value.text x).same (.text x) = true := by simp [Value.same]
        rw [if_pos same, ih (Nat.succ.inj length) (mt (congrArg _) differ)]
        simp only [List.cons_lt_cons_iff, lt_irrefl, true_and, false_or]
      · have same : ¬(Value.text x).same (.text y) = true := by simpa [Value.same] using first
        rw [if_neg same]
        show Except.ok (if decide (x < y) = true then Ordering.lt else .gt) = _
        simp only [List.cons_lt_cons_iff, decide_eq_true_eq, first, false_and, or_false]

/-- A key is neither before nor after itself. -/
theorem compare_self {a : RowKey} (alike : Alike a a) : compare a a = .ok .eq := by
  induction a with
  | nil => rfl
  | cons v a ih =>
    obtain ⟨first, rest⟩ := List.forall₂_cons.1 alike
    rw [compare, if_pos (first.same_iff.2 rfl), ih rest]

/-! ### Keys and places

What a key stands for is a value of a linear order, and the key is how the program writes it. Two
keys that stand for different places are different, and the first of them is that of the first
place. -/

section Places

variable {P : Type} [LinearOrder P] {toKey : P → RowKey} {places : List P} {p q : P}

/-- Keys stand for places: all of them are alike, and they are in the order of the places. So
comparing them never fails. -/
structure Represents (toKey : P → RowKey) (places : List P) : Prop where
  alike : ∀ p ∈ places, ∀ q ∈ places, Alike (toKey p) (toKey q)
  compare_lt : ∀ p ∈ places, ∀ q ∈ places, p < q → compare (toKey p) (toKey q) = .ok .lt
  compare_gt : ∀ p ∈ places, ∀ q ∈ places, p < q → compare (toKey q) (toKey p) = .ok .gt

theorem alike_texts {s t : List String} (length : s.length = t.length) :
    Alike (s.map .text) (t.map .text) := by
  rw [Alike, List.forall₂_map_left_iff, List.forall₂_map_right_iff]
  exact List.forall₂_iff_get.2 ⟨length, fun _ _ _ => .texts _ _⟩

/-- As many texts each stand for themselves. -/
theorem represents_texts {places : List (List String)} {n : ℕ}
    (length : ∀ p ∈ places, p.length = n) : Represents (List.map .text) places where
  alike p hp q hq := alike_texts ((length p hp).trans (length q hq).symm)
  compare_lt p hp q hq less := by
    have compared := compare_texts [] [] ((length p hp).trans (length q hq).symm) less.ne
    rw [List.append_nil, List.append_nil] at compared
    rw [compared, if_pos less]
  compare_gt p hp q hq less := by
    have compared := compare_texts [] [] ((length q hq).trans (length p hp).symm) less.ne'
    rw [List.append_nil, List.append_nil] at compared
    rw [compared, if_neg less.not_gt]

theorem compare_int (m n : ℤ) (differ : m ≠ n) :
    compare [.int m] [.int n] = .ok (if m < n then .lt else .gt) := by
  have same : (Value.int m).same (.int n) = decide (m = n) := Number.same_int m n
  have before : Value.isBefore false (.int m) (.int n) = .ok (decide (m < n)) :=
    congrArg Except.ok (Number.lt_int m n)
  rw [compare, same, decide_eq_false differ, if_neg Bool.false_ne_true, before]
  show Except.ok (if decide (m < n) = true then Ordering.lt else .gt) = _
  simp only [decide_eq_true_eq]

/-- The key of a location and a year: the texts of the location first, so that the rows of a
location stay together. -/
def ofDated (p : List String ×ₗ ℤ) : RowKey := (ofLex p).1.map .text ++ [.int (ofLex p).2]

/-- So do as many texts together with an integer. -/
theorem represents_dated {places : List (List String ×ₗ ℤ)} {n : ℕ}
    (length : ∀ p ∈ places, (ofLex p).1.length = n) : Represents ofDated places where
  alike p hp q hq :=
    List.rel_append (alike_texts ((length p hp).trans (length q hq).symm)) (.cons (.ints _ _) .nil)
  compare_lt p hp q hq less := by
    obtain texts | ⟨texts, year⟩ := Prod.Lex.lt_iff.1 less
    · rw [ofDated, ofDated, compare_texts _ _ ((length p hp).trans (length q hq).symm) texts.ne,
        if_pos texts]
    · rw [ofDated, ofDated, texts, compare_texts_self, compare_int _ _ year.ne, if_pos year]
  compare_gt p hp q hq less := by
    obtain texts | ⟨texts, year⟩ := Prod.Lex.lt_iff.1 less
    · rw [ofDated, ofDated, compare_texts _ _ ((length q hq).trans (length p hp).symm) texts.ne',
        if_neg texts.not_gt]
    · rw [ofDated, ofDated, texts, compare_texts_self, compare_int _ _ year.ne',
        if_neg year.not_gt]

namespace Represents

theorem subset {others : List P} (h : Represents toKey places) (within : others ⊆ places) :
    Represents toKey others where
  alike p hp q hq := h.alike p (within hp) q (within hq)
  compare_lt p hp q hq := h.compare_lt p (within hp) q (within hq)
  compare_gt p hp q hq := h.compare_gt p (within hp) q (within hq)

theorem le_eq (h : Represents toKey places) (hp : p ∈ places) (hq : q ∈ places) :
    le (toKey p) (toKey q) = decide (p ≤ q) := by
  rw [le]
  obtain less | rfl | greater := lt_trichotomy p q
  · rw [h.compare_lt p hp q hq less, decide_eq_true less.le]
  · rw [compare_self (h.alike p hp p hp), decide_eq_true le_rfl]
  · rw [h.compare_gt q hq p hp greater, decide_eq_false greater.not_ge]

/-- Different places have different keys. -/
theorem inj (h : Represents toKey places) (hp : p ∈ places) (hq : q ∈ places)
    (same : toKey p = toKey q) : p = q := by
  have self := compare_self (h.alike p hp p hp)
  obtain less | rfl | greater := lt_trichotomy p q
  · have compared := h.compare_lt p hp q hq less
    rw [← same, self] at compared
    nomatch compared
  · rfl
  · have compared := h.compare_lt q hq p hp greater
    rw [← same, self] at compared
    nomatch compared

theorem same_eq (h : Represents toKey places) (hp : p ∈ places) (hq : q ∈ places) :
    same (toKey p) (toKey q) = decide (p = q) := by
  rw [Bool.eq_iff_iff, (h.alike p hp q hq).same_iff, decide_eq_true_iff]
  exact ⟨h.inj hp hq, congrArg toKey⟩

end Represents

/-! ### Entries

Entries are pairs of a key and something that is kept under it. Which order they were made in is not
known, only of which places they are. -/

section Entries

variable {α : Type} {value : P → α} {entries : List (RowKey × α)}

omit [LinearOrder P] in
/-- Entries are those of places, in some order. -/
theorem exists_places_of_perm (perm : entries.Perm (places.map fun p => (toKey p, value p))) :
    ∃ others : List P, others.Perm places ∧ entries = others.map fun p => (toKey p, value p) := by
  have composed := congrFun₂ (List.eq_map_comp_perm fun p => (toKey p, value p)) entries places
  obtain ⟨others, same, perm'⟩ := composed.mpr perm
  exact ⟨others, perm', same⟩

/-- Entries are sorted into the order of their places, whatever order they were in. The places are
different, so there is only one such order. -/
theorem Represents.sort_eq_of_perm (h : Represents toKey places) (sorted : places.Pairwise (· ≤ ·))
    (perm : entries.Perm (places.map fun p => (toKey p, value p))) :
    sort entries = .ok (places.map fun p => (toKey p, value p)) := by
  obtain ⟨others, perm', rfl⟩ := exists_places_of_perm perm
  have within : Represents toKey others := h.subset perm'.subset
  have checked : checkOrder ((others.map fun p => (toKey p, value p)).map (·.1)) = .ok () := by
    refine checkOrder_eq ?_
    rw [List.map_map, List.pairwise_map]
    exact List.pairwise_of_forall_mem_list within.alike
  have arranged : others.mergeSort (fun p q => decide (p ≤ q)) = places :=
    ((List.mergeSort_perm _ _).trans perm').eq_of_pairwise' (List.pairwise_mergeSort' (· ≤ ·) _)
      sorted
  rw [sort, checked, ← arranged, List.map_mergeSort]
  · rfl
  · intro p hp q hq
    exact (within.le_eq hp hq).symm

/-- What is found under the key of a place. -/
theorem Represents.find?_eq_of_perm (h : Represents toKey (q :: places))
    (perm : entries.Perm (places.map fun p => (toKey p, value p))) :
    find? (toKey q) entries = if q ∈ places then some (value q) else none := by
  have known {e : RowKey × α} (he : e ∈ entries) : ∃ p ∈ places, (toKey p, value p) = e :=
    List.mem_map.1 (perm.subset he)
  have alike : ∀ e ∈ entries, Alike e.1 (toKey q) := by
    intro e he
    obtain ⟨p, hp, rfl⟩ := known he
    exact h.alike p (List.mem_cons_of_mem q hp) q List.mem_cons_self
  have own {e : RowKey × α} (he : e ∈ entries) (key : e.1 = toKey q) :
      q ∈ places ∧ e.2 = value q := by
    obtain ⟨p, hp, rfl⟩ := known he
    obtain rfl := h.inj (List.mem_cons_of_mem q hp) List.mem_cons_self key
    exact ⟨hp, rfl⟩
  split
  · next there =>
    exact find?_eq_some alike (fun e he key => (own he key).2)
      (perm.symm.subset (List.mem_map.2 ⟨q, there, rfl⟩))
  · next absent =>
    exact find?_eq_none alike fun e he key => absent (own he key).1

end Entries

/-! ### Rows by place

Going through rows one by one, either all rows of a place are collected, or the last one replaces
those before it. Both are described by filtering the rows by their place, which mentions no entries.
-/

section Rows

variable {β : Type} (place : β → P) {rows : List β}

/-- The places of some rows, each once and in order. This is the list that grouping and sorting come
to. -/
def placesOf (rows : List β) : List P := (rows.map place).toFinset.sort

/-- The rows of a place, in the order in which they are given. -/
def rowsAt (rows : List β) (p : P) : List β := rows.filter fun row => place row = p

/-- The last row of a place. It is the row that is left if each row is written over the one before
it. -/
def lastAt? (rows : List β) (p : P) : Option β := (rowsAt place rows p).getLast?

variable {place}

@[simp] theorem mem_placesOf : p ∈ placesOf place rows ↔ ∃ row ∈ rows, place row = p := by
  simp [placesOf]

theorem pairwise_placesOf (place : β → P) (rows : List β) :
    (placesOf place rows).Pairwise (· < ·) :=
  (Finset.sortedLT_sort _).pairwise

theorem nodup_placesOf (place : β → P) (rows : List β) : (placesOf place rows).Nodup :=
  Finset.sort_nodup _ _

/-- A place of some rows has a last row. -/
theorem exists_lastAt? (h : p ∈ placesOf place rows) :
    ∃ row ∈ rows, lastAt? place rows p = some row ∧ place row = p := by
  obtain ⟨row, hrow, here⟩ := mem_placesOf.1 h
  have some_row : rowsAt place rows p ≠ [] :=
    List.ne_nil_of_mem (List.mem_filter.2 ⟨hrow, decide_eq_true here⟩)
  obtain ⟨mem, there⟩ := List.mem_filter.1 (List.getLast_mem some_row)
  exact ⟨_, mem, List.getLast?_eq_some_getLast some_row, of_decide_eq_true there⟩

theorem placesOf_eq_of_perm {others : List β} (perm : others.Perm rows) :
    placesOf place others = placesOf place rows := by
  rw [placesOf, placesOf, List.toFinset_eq_of_perm _ _ (perm.map place)]

/-- Where there is one row at most for each place, the order of the rows does not matter. -/
theorem lastAt?_eq_of_perm {others : List β} (perm : others.Perm rows)
    (unique : rows.Pairwise fun a b => place a ≠ place b) (p : P) :
    lastAt? place others p = lastAt? place rows p := by
  have here := perm.filter fun row => decide (place row = p)
  have single : (rowsAt place rows p).Pairwise fun _ _ => False :=
    (unique.filter _).imp_of_mem fun ha hb differ =>
      differ ((of_decide_eq_true (List.mem_filter.1 ha).2).trans
        (of_decide_eq_true (List.mem_filter.1 hb).2).symm)
  have same : rowsAt place others p = rowsAt place rows p := by
    change (rowsAt place others p).Perm (rowsAt place rows p) at here
    match rowsAt place rows p, single, here with
    | [], _, here => exact here.eq_nil
    | [a], _, here => exact List.perm_singleton.1 here
    | a :: b :: _, single, _ => exact ((List.pairwise_cons.1 single).1 b List.mem_cons_self).elim
  rw [lastAt?, same, lastAt?]

/-- Rows are grouped into the rows of each place, in the order in which they come among the rows. -/
theorem Represents.foldl_group_perm (h : Represents toKey (rows.map place)) :
    (rows.foldl (fun groups row => update (toKey (place row))
      (fun group => group.getD [] ++ [row]) groups) []).Perm
      ((placesOf place rows).map fun p => (toKey p, rowsAt place rows p)) := by
  have known {row : β} (hrow : row ∈ rows) : place row ∈ rows.map place := List.mem_map_of_mem hrow
  obtain ⟨keys, nodup, mem_keys, groups⟩ := exists_groups (fun row => toKey (place row))
    fun row hrow other hother => h.alike _ (known hrow) _ (known hother)
  have places {p : P} (hp : p ∈ placesOf place rows) : p ∈ rows.map place :=
    List.mem_map.2 (mem_placesOf.1 hp)
  have perm : keys.Perm ((placesOf place rows).map toKey) := by
    refine (List.perm_ext_iff_of_nodup nodup ?_).2 fun k => ?_
    · exact (nodup_placesOf _ _).map_on fun p hp q hq => h.inj (places hp) (places hq)
    · rw [mem_keys, List.mem_map]
      simp
  rw [groups]
  refine (perm.map _).trans (List.Perm.of_eq ?_)
  rw [List.map_map]
  refine List.map_congr_left fun p hp => congrArg (Prod.mk _) (List.filter_congr fun row hrow => ?_)
  rw [h.same_eq (places hp) (known hrow), decide_eq_decide]
  exact eq_comm

/-- A change of entries that only depends on what is read off them is a change of what is read. -/
theorem map_update {α γ : Type} (f : α → γ) {change : Option α → α} (change' : Option γ → γ)
    (commutes : ∀ a, f (change a) = change' (a.map f)) (key : RowKey)
    (entries : List (RowKey × α)) :
    (update key change entries).map (Prod.map id f) =
      update key change' (entries.map (Prod.map id f)) := by
  induction entries with
  | nil => simp [update, commutes]
  | cons e entries ih =>
    obtain ⟨k, a⟩ := e
    by_cases here : same k key = true
    · simp [update, here, commutes]
    · simp [update, here, ih]

/-- Of rows that are written one after the other, the last one of each place is left. -/
theorem Represents.foldl_replace_perm [Inhabited β] (h : Represents toKey (rows.map place)) :
    (rows.foldl (fun entries row => update (toKey (place row)) (fun _ => row) entries) []).Perm
      ((placesOf place rows).map fun p => (toKey p, (lastAt? place rows p).getD default)) := by
  have read (groups : List (RowKey × List β)) :
      (rows.foldl (fun groups row => update (toKey (place row))
        (fun group => group.getD [] ++ [row]) groups) groups).map
          (Prod.map id fun group => group.getLast?.getD default) =
      rows.foldl (fun entries row => update (toKey (place row)) (fun _ => row) entries)
        (groups.map (Prod.map id fun group => group.getLast?.getD default)) := by
    clear h
    induction rows generalizing groups with
    | nil => rfl
    | cons row rows ih =>
      have last (group : Option (List β)) :
          (group.getD [] ++ [row]).getLast?.getD default = row := by simp
      have written := map_update (fun group => group.getLast?.getD default) (fun _ => row) last
        (toKey (place row)) groups
      rw [List.foldl_cons, List.foldl_cons, ih, written]
  rw [← List.map_nil, ← read []]
  refine (h.foldl_group_perm.map _).trans (List.Perm.of_eq ?_)
  rw [List.map_map]
  rfl

end Rows

end Places

end RowKey

end PropertyMarket
