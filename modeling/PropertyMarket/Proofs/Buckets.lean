import Mathlib.Algebra.BigOperators.Group.List.Basic
import Mathlib.Algebra.Order.Ring.Nat
import Mathlib.Algebra.Order.Ring.Rat
import PropertyMarket.Legend.Bucket

/-!
# Every value has one bucket

Boundaries delimit buckets that are open above, the last one apart. If the inner boundaries do not
decrease, then a value between the outer ones has exactly one bucket, whether or not the inner
ones lie between the outer ones as well: of two boundaries that are equal, or too far out, the
bucket between them is empty. So counts of values by bucket add up to the number of values.

## Main definitions

* `Measure.Lawful` — a kind of number that is compared by a linear order
* `Range.chain` — the buckets from a lower boundary over inner ones to an upper one
* `Range.Covers` — such buckets reach a value

## Main results

* `Measure.exists_least`, `Measure.exists_greatest` — the least and the greatest value
* `Range.countP_holds_eq` — a value has one bucket if the buckets reach it, and none otherwise
* `Range.countP_holds_chain` — a value between the outer boundaries has exactly one bucket
* `Range.sum_counts_eq`, `Range.sum_counts_chain` — the counts by bucket add up to the number of
  values that are reached, or of all values
* `Range.last_chain` — the last bucket is the one that holds the upper boundary

## Implementation notes

Chains are defined by the model as the adjacent pairs of a list of boundaries. Here they are taken
apart at the first inner boundary: a value below it can only be in the first bucket, and any other
value only in the later ones. This is the induction of `Range.countP_holds_eq`, and it needs no more
of the boundaries than that the inner ones are sorted.

Counts over buckets and counts over values are sums over the same pairs, which is how one bucket for
each value becomes a sum of counts.
-/

namespace PropertyMarket

/-! ### Values with a linear order

Ranges are compared by two tests that a kind of number brings with it. What is said of buckets needs
these to be those of a linear order, and nothing else of the numbers. -/

/-- A kind of number that is compared by a linear order. Rational numbers are, and so is any other
kind whose tests are read off from its order. -/
class Measure.Lawful (β : Type) [Measure β] [LinearOrder β] : Prop where
  lt_iff : ∀ a b : β, Measure.lt a b = true ↔ a < b
  le_iff : ∀ a b : β, Measure.le a b = true ↔ a ≤ b

instance : Measure.Lawful Rat where
  lt_iff _ _ := decide_eq_true_iff
  le_iff _ _ := decide_eq_true_iff

namespace Measure

/-- What is kept along a list, whenever nothing better comes, is the best of its items. Least and
greatest values are both found in this way, in one pass. -/
theorem foldl_best {β : Type} (better : β → β → Bool) {r : β → β → Prop} (refl : ∀ a, r a a)
    (trans : ∀ {a b c}, r a b → r b c → r a c) (taken : ∀ {a b}, better a b = true → r a b)
    (kept : ∀ {a b}, better a b = false → r b a) (x : β) (xs : List β) :
    let best := xs.foldl (fun kept next => if better next kept then next else kept) x
    best ∈ x :: xs ∧ ∀ y ∈ x :: xs, r best y := by
  induction xs generalizing x with
  | nil => exact ⟨List.mem_singleton_self x, by simpa using refl x⟩
  | cons next xs ih =>
    -- The induction goes on with what is kept of the first two items.
    obtain ⟨first, hfirst⟩ : ∃ first, first = if better next x then next else x := ⟨_, rfl⟩
    have among : first = next ∨ first = x := by
      rw [hfirst]
      split <;> simp
    have best_of_two : r first next ∧ r first x := by
      rw [hfirst]
      cases hb : better next x with
      | true => exact ⟨refl next, taken hb⟩
      | false => exact ⟨kept hb, refl x⟩
    obtain ⟨hmem, hbest⟩ := ih first
    have best_first := hbest first List.mem_cons_self
    simp only [List.foldl_cons, ← hfirst]
    refine ⟨?_, fun y hy => ?_⟩
    · obtain h | h := List.mem_cons.1 hmem
      · rw [h]
        obtain rfl | rfl := among
        · exact List.mem_cons_of_mem _ List.mem_cons_self
        · exact List.mem_cons_self
      · exact List.mem_cons_of_mem _ (List.mem_cons_of_mem _ h)
    · obtain rfl | hy := List.mem_cons.1 hy
      · exact trans best_first best_of_two.2
      · obtain rfl | hy := List.mem_cons.1 hy
        · exact trans best_first best_of_two.1
        · exact hbest y (List.mem_cons_of_mem _ hy)

variable {β : Type} [Measure β] [LinearOrder β] [Measure.Lawful β]

theorem lt_eq_false_iff {a b : β} : Measure.lt a b = false ↔ b ≤ a := by
  rw [← Bool.not_eq_true, Lawful.lt_iff, not_lt]

/-- Some values, if there are any, have a least one, which is one of them and not above any of
them. -/
theorem exists_least {values : List β} (h : values ≠ []) :
    ∃ lo, least values = some lo ∧ lo ∈ values ∧ ∀ x ∈ values, lo ≤ x := by
  cases values with
  | nil => exact absurd rfl h
  | cons x xs =>
    exact ⟨_, rfl, foldl_best (fun a b => Measure.lt a b) le_refl le_trans
      (fun h => ((Lawful.lt_iff _ _).1 h).le) lt_eq_false_iff.1 x xs⟩

/-- Some values, if there are any, have a greatest one, which is one of them and not below any of
them. -/
theorem exists_greatest {values : List β} (h : values ≠ []) :
    ∃ hi, greatest values = some hi ∧ hi ∈ values ∧ ∀ x ∈ values, x ≤ hi := by
  cases values with
  | nil => exact absurd rfl h
  | cons x xs =>
    exact ⟨_, rfl, foldl_best (fun a b => Measure.lt b a) (r := fun a b => b ≤ a) le_refl
      (fun hab hbc => le_trans hbc hab) (fun h => ((Lawful.lt_iff _ _).1 h).le) lt_eq_false_iff.1
      x xs⟩

/-- The least value is one of the values, and none is less. -/
theorem least_spec {values : List β} {lo : β} (h : least values = some lo) :
    lo ∈ values ∧ ∀ x ∈ values, lo ≤ x := by
  have nonempty : values ≠ [] := by
    rintro rfl
    nomatch h
  obtain ⟨_, hlo, mem, below⟩ := exists_least nonempty
  obtain rfl := Option.some.inj (h.symm.trans hlo)
  exact ⟨mem, below⟩

/-- The greatest value is one of the values, and none is greater. -/
theorem greatest_spec {values : List β} {hi : β} (h : greatest values = some hi) :
    hi ∈ values ∧ ∀ x ∈ values, x ≤ hi := by
  have nonempty : values ≠ [] := by
    rintro rfl
    nomatch h
  obtain ⟨_, hhi, mem, above⟩ := exists_greatest nonempty
  obtain rfl := Option.some.inj (h.symm.trans hhi)
  exact ⟨mem, above⟩

end Measure

/-! ### Chains of buckets

The buckets from a lower boundary over inner ones to an upper one. All but the last are open above,
so that a boundary between two of them belongs to the later one. -/

namespace Range

/-- The buckets from `a` over `bs` to `c`, which are the ranges of these boundaries with none of
them missing. -/
def chain {β : Type} (a : β) (bs : List β) (c : β) : List (Range β) :=
  ofBoundaries (some a :: bs.map some ++ [some c])

@[simp] theorem chain_nil {β : Type} (a c : β) : chain a [] c = [⟨some a, some c, true⟩] := rfl

@[simp] theorem chain_cons {β : Type} (a b : β) (bs : List β) (c : β) :
    chain a (b :: bs) c = ⟨some a, some b, false⟩ :: chain b bs c := by
  cases bs <;> rfl

theorem length_chain {β : Type} (a : β) (bs : List β) (c : β) :
    (chain a bs c).length = bs.length + 1 := by
  induction bs generalizing a with
  | nil => rfl
  | cons b bs ih => rw [chain_cons, List.length_cons, ih, List.length_cons]

/-- Each bucket starts at a boundary that is not the upper one. -/
theorem map_lower_chain {β : Type} (a : β) (bs : List β) (c : β) :
    (chain a bs c).map lower = (a :: bs).map some := by
  induction bs generalizing a with
  | nil => rfl
  | cons b bs ih =>
    rw [chain_cons, List.map_cons, ih]
    rfl

/-- Each bucket ends at a boundary that is not the lower one. -/
theorem map_upper_chain {β : Type} (a : β) (bs : List β) (c : β) :
    (chain a bs c).map upper = (bs ++ [c]).map some := by
  induction bs generalizing a with
  | nil => rfl
  | cons b bs ih =>
    rw [chain_cons, List.map_cons, ih]
    rfl

/-! ### Reach

Inner boundaries may lie outside of the outer ones, so a chain can reach values beyond them, or fail
to reach values between them. What it does reach is said without mentioning single buckets. -/

/-- A value is reached by the buckets from `a` over `bs` to `c`: some bucket starts below it, and
some bucket goes up to it, be it the last one or one that ends above it. -/
def Covers {β : Type} [LinearOrder β] (a : β) (bs : List β) (c v : β) : Prop :=
  (∃ b ∈ a :: bs, b ≤ v) ∧ (v ≤ c ∨ ∃ b ∈ bs, v < b)

instance {β : Type} [LinearOrder β] (a : β) (bs : List β) (c v : β) : Decidable (Covers a bs c v) :=
  inferInstanceAs (Decidable (_ ∧ _))

section Covers

variable {β : Type} [LinearOrder β] {a b c v : β} {bs : List β}

/-- A value that is below the first inner boundary has the first bucket at most. -/
theorem covers_of_lt (sorted : (b :: bs).Pairwise (· ≤ ·))
    (hv : v < b) : Covers a (b :: bs) c v ↔ a ≤ v := by
  have above : ∀ x ∈ b :: bs, v < x := by
    intro x hx
    obtain rfl | hx := List.mem_cons.1 hx
    · exact hv
    · exact hv.trans_le ((List.pairwise_cons.1 sorted).1 x hx)
  constructor
  · rintro ⟨⟨x, hx, hxv⟩, -⟩
    obtain rfl | hx := List.mem_cons.1 hx
    · exact hxv
    · exact absurd hxv (not_le.2 (above x hx))
  · intro ha
    exact ⟨⟨a, List.mem_cons_self, ha⟩, .inr ⟨b, List.mem_cons_self, hv⟩⟩

/-- A value that is not below the first inner boundary has none but the later buckets. -/
theorem covers_of_le (hv : b ≤ v) :
    Covers a (b :: bs) c v ↔ Covers b bs c v := by
  have started : (∃ x ∈ a :: b :: bs, x ≤ v) ∧ ∃ x ∈ b :: bs, x ≤ v :=
    ⟨⟨b, by simp, hv⟩, b, by simp, hv⟩
  have ended : (∃ x ∈ b :: bs, v < x) ↔ ∃ x ∈ bs, v < x := by
    simp [not_lt.2 hv]
  rw [Covers, Covers, iff_true_intro started.1, iff_true_intro started.2, ended]

/-- Between inner boundaries that lie between the outer ones, what is reached is what lies between
the outer ones as well. This is the usual case, in which the outer boundaries are the least and the
greatest value. -/
theorem covers_iff_of_within (within : ∀ b ∈ bs, a ≤ b ∧ b ≤ c) :
    Covers a bs c v ↔ a ≤ v ∧ v ≤ c := by
  constructor
  · rintro ⟨⟨x, hx, hxv⟩, hv⟩
    refine ⟨?_, ?_⟩
    · obtain rfl | hx := List.mem_cons.1 hx
      · exact hxv
      · exact (within x hx).1.trans hxv
    · obtain high | ⟨y, hy, hvy⟩ := hv
      · exact high
      · exact hvy.le.trans (within y hy).2
  · rintro ⟨low, high⟩
    exact ⟨⟨a, List.mem_cons_self, low⟩, .inl high⟩

end Covers

/-! ### Membership

A value is in at most one bucket, and if the buckets reach it, it is in one. The two halves are one
equation on the number of buckets that hold it. -/

variable {β : Type} [Measure β] [LinearOrder β] [Measure.Lawful β]

theorem holds_open {a b v : β} :
    holds ⟨some a, some b, false⟩ v = true ↔ a ≤ v ∧ v < b := by
  simp [holds, Measure.lt_eq_false_iff, Measure.Lawful.lt_iff]

theorem holds_closed {a b v : β} :
    holds ⟨some a, some b, true⟩ v = true ↔ a ≤ v ∧ v ≤ b := by
  simp [holds, Measure.lt_eq_false_iff, Measure.Lawful.le_iff]

/-- **A value has one bucket if the buckets reach it, and none otherwise.**

The inner boundaries do not decrease; they may repeat, and may lie outside the outer ones. -/
theorem countP_holds_eq {a c v : β} {bs : List β} (sorted : bs.Pairwise (· ≤ ·)) :
    (chain a bs c).countP (fun r => r.holds v) = if Covers a bs c v then 1 else 0 := by
  induction bs generalizing a with
  | nil =>
    have closed : Covers a [] c v ↔ a ≤ v ∧ v ≤ c := by simp [Covers]
    rw [chain_nil, List.countP_singleton]
    simp only [holds_closed, closed]
  | cons b bs ih =>
    rw [chain_cons, List.countP_cons, ih (List.pairwise_cons.1 sorted).2]
    by_cases hb : b ≤ v
    · have beyond : ¬(a ≤ v ∧ v < b) := fun h => absurd hb (not_le.2 h.2)
      simp only [holds_open, if_neg beyond, covers_of_le hb, Nat.add_zero]
    · have before := not_le.1 hb
      have later : ¬Covers b bs c v := by
        rintro ⟨⟨x, hx, hxv⟩, -⟩
        obtain rfl | hx := List.mem_cons.1 hx
        · exact hb hxv
        · exact hb (((List.pairwise_cons.1 sorted).1 x hx).trans hxv)
      simp only [holds_open, if_neg later, covers_of_lt sorted before, before, and_true,
        Nat.zero_add]

/-- **A value between the outer boundaries has exactly one bucket.** Nothing is asked of the inner
boundaries but that they do not decrease. -/
theorem countP_holds_chain {a c v : β} {bs : List β} (sorted : bs.Pairwise (· ≤ ·)) (low : a ≤ v)
    (high : v ≤ c) : (chain a bs c).countP (fun r => r.holds v) = 1 := by
  rw [countP_holds_eq sorted, if_pos ⟨⟨a, List.mem_cons_self, low⟩, .inl high⟩]

/-- The last bucket goes up to the upper boundary, and holds it if no boundary is above it. -/
theorem last_chain {a c : β} {bs : List β} (within : ∀ b ∈ a :: bs, b ≤ c) :
    ∃ r, (chain a bs c).getLast? = some r ∧ r.holds c = true := by
  induction bs generalizing a with
  | nil => exact ⟨_, rfl, holds_closed.2 ⟨within a List.mem_cons_self, le_refl c⟩⟩
  | cons b bs ih =>
    obtain ⟨r, hlast, hr⟩ := ih fun x hx => within x (List.mem_cons_of_mem a hx)
    exact ⟨r, by rw [chain_cons, List.getLast?_cons, hlast]; rfl, hr⟩

end Range

/-! ### Counts

Each bucket is counted by going through all values. As each value is in one bucket, the sum of the
counts is the number of values. -/

theorem sum_ite_eq_countP {γ : Type} (q : γ → Bool) (conditions : List γ) :
    (conditions.map fun c => if q c then 1 else 0).sum = conditions.countP q := by
  induction conditions with
  | nil => rfl
  | cons c conditions ih => rw [List.map_cons, List.sum_cons, List.countP_cons, ih, Nat.add_comm]

/-- Counting for each condition what satisfies it is counting for each item what it satisfies. Both
are the number of pairs of a condition and an item that satisfies it. -/
theorem sum_countP_comm {α γ : Type} (p : γ → α → Bool) (conditions : List γ) (items : List α) :
    (conditions.map fun c => items.countP (p c)).sum =
      (items.map fun x => conditions.countP fun c => p c x).sum := by
  induction items with
  | nil => simp
  | cons x items ih =>
    have step : ∀ c, (x :: items).countP (p c) = items.countP (p c) + if p c x then 1 else 0 :=
      fun c => List.countP_cons
    rw [List.map_congr_left fun c _ => step c, List.sum_map_add, ih, List.map_cons, List.sum_cons,
      Nat.add_comm]
    rw [sum_ite_eq_countP]

namespace Range

variable {β : Type} [Measure β] [LinearOrder β] [Measure.Lawful β]

/-- The counts by bucket add up to the number of values that the buckets reach. -/
theorem sum_counts_eq {a c : β} {bs : List β} (sorted : bs.Pairwise (· ≤ ·)) (values : List β) :
    ((chain a bs c).map fun r => values.countP r.holds).sum =
      values.countP fun v => decide (Covers a bs c v) := by
  have one (v : β) (_ : v ∈ values) :
      ((chain a bs c).countP fun r => r.holds v) = if decide (Covers a bs c v) then 1 else 0 := by
    simpa using countP_holds_eq sorted
  rw [sum_countP_comm, List.map_congr_left one, sum_ite_eq_countP]

/-- **The counts by bucket add up to the number of values**, if all of them lie between the outer
boundaries. -/
theorem sum_counts_chain {a c : β} {bs values : List β} (sorted : bs.Pairwise (· ≤ ·))
    (within : ∀ v ∈ values, a ≤ v ∧ v ≤ c) :
    ((chain a bs c).map fun r => values.countP r.holds).sum = values.length := by
  rw [sum_counts_eq sorted, List.countP_eq_length]
  intro v hv
  exact decide_eq_true ⟨⟨a, List.mem_cons_self, (within v hv).1⟩, .inl (within v hv).2⟩

end Range

end PropertyMarket
