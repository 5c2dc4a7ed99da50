import Mathlib.Data.List.Sort
import Mathlib.Logic.Equiv.Basic
import Mathlib.Tactic.Ring

/-!
# Pages of what is sorted

Items are sorted by a key and handed out in pages. Each page is asked for on its own, and items of
one key may be in another order every time. So the pages put one after another need not be the
items: if two items have the same key, one of them may be on two pages and the other one on none.
That is also the only way in which it can go wrong.

## Main definitions

* `Arranges` — a list has the items of another one, sorted by a key
* `page` — a page of a list, by its number

## Main results

* `Arranges.unique` — items of distinct keys can be sorted in one way only
* `flatMap_page` — the pages of one list, put one after another
* `pages_perm_iff` — pages list all items once, whatever is done with items of one key, exactly if
  there are no two of them

## Implementation notes

One direction is uniqueness: with distinct keys there is only one sorted list, so all pages are
pages of the same list. For the other direction two items of one key are exchanged in a sorted list,
which leaves it sorted; with pages of one item each, one page of the original and all others of the
exchanged list show one of the two items twice.
-/

namespace PropertyMarket

variable {α κ : Type} [LinearOrder κ] {key : α → κ} {items : List α}

/-! ### Sorting

Being sorted is a relation between lists and not a function, because the order among items of one
key is not determined. There always is at least one sorted list. -/

/-- A list has the items of another one, sorted by a key; items of one key are in any order. -/
structure Arranges (key : α → κ) (items sorted : List α) : Prop where
  perm : sorted.Perm items
  pairwise : sorted.Pairwise fun a b => key a ≤ key b

theorem exists_arranges (key : α → κ) (items : List α) : ∃ sorted, Arranges key items sorted := by
  let before (a b : α) : Bool := decide (key a ≤ key b)
  have trans : ∀ a b c, before a b = true → before b c = true → before a c = true := by
    simp only [before, decide_eq_true_iff]
    exact fun _ _ _ => le_trans
  have total : ∀ a b, (before a b || before b a) = true := by
    simp only [before, Bool.or_eq_true, decide_eq_true_iff]
    exact fun a b => le_total (key a) (key b)
  refine ⟨items.mergeSort before, List.mergeSort_perm .., ?_⟩
  simpa [before] using List.pairwise_mergeSort trans total items

/-- Items of distinct keys can be sorted in one way only, so whoever sorts them gets the same
list. -/
theorem Arranges.unique (distinct : (items.map key).Nodup) {l l' : List α}
    (h : Arranges key items l) (h' : Arranges key items l') : l = l' := by
  refine List.Perm.eq_of_pairwise ?_ h.pairwise h'.pairwise (h.perm.trans h'.perm.symm)
  intro a b ha hb hab hba
  have same : key a = key b := le_antisymm hab hba
  exact List.inj_on_of_nodup_map distinct (h.perm.subset ha) (h'.perm.subset hb) same

/-- Two items of one key can be exchanged. -/
theorem Arranges.swap [DecidableEq α] (nodup : items.Nodup) {l : List α} (h : Arranges key items l)
    {a b : α} (ha : a ∈ items) (hb : b ∈ items) (same : key a = key b) :
    Arranges key items (l.map (Equiv.swap a b)) where
  perm := by
    have swapped (x : α) : x ∈ items ↔ Equiv.swap a b x ∈ items := by
      rw [Equiv.swap_apply_def]
      split_ifs with isA isB
      · exact iff_of_true (isA ▸ ha) hb
      · exact iff_of_true (isB ▸ hb) ha
      · exact Iff.rfl
    refine (List.perm_ext_iff_of_nodup ?_ nodup).2 fun x => ?_
    · exact (h.perm.nodup_iff.2 nodup).map (Equiv.injective _)
    · conv_lhs => rw [← Equiv.swap_apply_self a b x]
      rw [List.mem_map_of_injective (Equiv.injective _), h.perm.mem_iff, ← swapped]
  pairwise := by
    have kept (x : α) : key (Equiv.swap a b x) = key x := by
      rw [Equiv.swap_apply_def]
      split_ifs with isA isB
      · rw [isA, same]
      · rw [isB, same]
      · rfl
    simpa only [List.pairwise_map, kept] using h.pairwise

/-! ### Pages

Pages are numbered from zero. A page beyond the end is empty, so enough pages are all that have to
be asked for, and more do no harm. -/

/-- A page of a list, by its number, the first one being number zero; pages behind the end are
empty. -/
def page (size : ℕ) (l : List α) (number : ℕ) : List α := (l.drop (number * size)).take size

/-- The first pages of a list, put one after another, are the beginning of the list. -/
theorem flatMap_page (size : ℕ) (l : List α) (n : ℕ) :
    (List.range n).flatMap (page size l) = l.take (n * size) := by
  induction n with
  | zero => simp
  | succ n ih =>
    rw [List.range_succ, List.flatMap_append, ih, List.flatMap_singleton, page, Nat.add_mul,
      Nat.one_mul, List.take_add]

/-- A page of one item is the item at its number. -/
theorem mem_page_one {l : List α} {i : ℕ} {a : α} : a ∈ page 1 l i ↔ l[i]? = some a := by
  rw [page, Nat.mul_one, List.take_one, List.head?_drop, Option.mem_toList]

/-- **Pages list all items once, whatever is done with items of one key, exactly if there are no two
of them.** Every page may come of another arrangement of the items. -/
theorem pages_perm_iff (nodup : items.Nodup) :
    (∀ size > 0, ∀ pages : ℕ → List α,
      (∀ i, ∃ sorted, Arranges key items sorted ∧ pages i = page size sorted i) →
      ∀ n, items.length ≤ n * size → ((List.range n).flatMap pages).Perm items) ↔
    (items.map key).Nodup := by
  classical
  constructor
  · intro once
    refine nodup.map_on fun a ha b hb same => ?_
    by_contra differ
    -- The page that has `b` has `a` instead if the two are exchanged, and no other page has `b`.
    obtain ⟨sorted, arranged⟩ := exists_arranges key items
    obtain ⟨j, hj, at_j⟩ := List.getElem_of_mem (arranged.perm.mem_iff.2 hb)
    let pages (i : ℕ) : List α :=
      if i = j then page 1 (sorted.map (Equiv.swap a b)) i else page 1 sorted i
    have arranges (i : ℕ) : ∃ sorted, Arranges key items sorted ∧ pages i = page 1 sorted i := by
      by_cases h : i = j
      · exact ⟨_, arranged.swap nodup ha hb same, if_pos h⟩
      · exact ⟨sorted, arranged, if_neg h⟩
    have listed : b ∈ (List.range items.length).flatMap pages :=
      (once 1 Nat.one_pos pages arranges items.length (by omega)).mem_iff.2 hb
    obtain ⟨i, -, hi⟩ := List.mem_flatMap.1 listed
    have distinct : sorted.Nodup := arranged.perm.nodup_iff.2 nodup
    by_cases h : i = j
    · have exchanged : b ∈ page 1 (sorted.map (Equiv.swap a b)) i := (if_pos h : pages i = _) ▸ hi
      rw [mem_page_one, h, List.getElem?_map, List.getElem?_eq_getElem hj, at_j, Option.map_some,
        Equiv.swap_apply_right] at exchanged
      exact differ (Option.some.inj exchanged)
    · have kept : b ∈ page 1 sorted i := (if_neg h : pages i = _) ▸ hi
      obtain ⟨hi, at_i⟩ := List.getElem?_eq_some_iff.1 (mem_page_one.1 kept)
      exact h ((List.Nodup.getElem_inj_iff distinct).1 (at_i.trans at_j.symm))
  · intro distinct size positive pages arranges n enough
    obtain ⟨sorted, arranged⟩ := exists_arranges key items
    have same : pages = page size sorted := by
      funext i
      obtain ⟨other, arranged', hpage⟩ := arranges i
      rw [hpage, arranged'.unique distinct arranged]
    rw [same, flatMap_page, List.take_of_length_le (by rwa [arranged.perm.length_eq])]
    exact arranged.perm

end PropertyMarket
