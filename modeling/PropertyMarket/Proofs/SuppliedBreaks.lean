import Mathlib.Data.Multiset.Count
import PropertyMarket.Proofs.MemoryLegend

/-!
# Legends with supplied breaks

The breaks of a legend need not be quantiles. A provider may round them, take them from elsewhere,
or leave some out: as long as they do not decrease, and least and greatest value are those of what
is counted, each value has one bucket. A break below the least value only leaves the buckets
before it empty, a break above the greatest value those after it, and a repeated one the bucket
between the two.

## Main definitions

* `Legend.Provider.Reports` — a provider reports a multiset of values, with breaks of its own

## Main results

* `Legend.compute_of_reports` — a legend of such a provider counts every value once

## Implementation notes

The values are a multiset, since neither their order nor how a provider stores them matters, and of
their type only a linear order is used. The hypothesis on a provider is what it reports and nothing
on how: its statistics are those of the values, its counts are those of the buckets that it is asked
for, and its breaks do not decrease.

The result rests on the number of buckets that hold a value, which is one for every value between
the outer bounds. Summing over the values instead of the buckets then gives the number of values.
-/

namespace PropertyMarket.Legend

/-- Counting a multiset for each condition, where its members each satisfy just one of them, counts
every member once. -/
theorem sum_countP_of_once {α γ : Type} (holds : γ → α → Bool) (conditions : List γ)
    {values : Multiset α} (once : ∀ x ∈ values, conditions.countP (fun c => holds c x) = 1) :
    (conditions.map fun c => values.countP fun x => holds c x = true).sum = values.card := by
  induction values using Quotient.inductionOn with
  | h items =>
    have listed (c : γ) : (Multiset.countP (fun x => holds c x = true) (items : Multiset α)) =
        items.countP (holds c) := by
      rw [Multiset.coe_countP]
      simp
    have once : ∀ x ∈ items, conditions.countP (fun c => holds c x) = 1 := once
    calc (conditions.map fun c => Multiset.countP (fun x => holds c x = true) items).sum
        = (conditions.map fun c => items.countP (holds c)).sum := by
          rw [List.map_congr_left fun c _ => listed c]
      _ = (items.map fun x => conditions.countP fun c => holds c x).sum :=
          sum_countP_comm holds conditions items
      _ = (items : Multiset α).card := by
          rw [List.map_congr_left once, List.map_const', List.sum_replicate_nat, Nat.mul_one,
            Multiset.coe_card]

variable {β : Type} [Measure β] [LinearOrder β] [Measure.Lawful β]

/-- A draft describes values: its statistics are theirs, and its breaks, whatever they are, do not
decrease. Without values there is neither a least nor a greatest one. -/
structure Draft.Describes (d : Draft β ℕ) (values : Multiset β) : Prop where
  least : ∀ lo, d.stats.least = some lo ↔ lo ∈ values ∧ ∀ x ∈ values, lo ≤ x
  greatest : ∀ hi, d.stats.greatest = some hi ↔ hi ∈ values ∧ ∀ x ∈ values, x ≤ hi
  count : d.stats.count = values.card
  breaks : ∃ breaks : List β, d.breaks = breaks.map some ∧ breaks.Pairwise (· ≤ ·)

/-- A provider reports values: it describes them, whatever cuts it is asked for, and counts those
that a bucket holds, whatever the bucket. -/
structure Provider.Reports (p : Provider β ℕ) (values : Multiset β) : Prop where
  draft : ∀ cuts, ∃ d, p.draft cuts = .ok d ∧ d.Describes values
  count : ∀ position r, p.count position r = .ok (values.countP fun x => r.holds x = true)

/-- The buckets of a draft hold each of the values it describes exactly once. The values lie between
the least and the greatest one, and these are the outer bounds. -/
theorem Draft.Describes.once {d : Draft β ℕ} {values : Multiset β} (h : d.Describes values)
    {x : β} (hx : x ∈ values) : d.ranges.countP (fun r => r.holds x) = 1 := by
  obtain ⟨breaks, hbreaks, sorted⟩ := h.breaks
  obtain ⟨items, rfl⟩ := Quotient.exists_rep values
  have some_item : items ≠ [] := List.ne_nil_of_mem hx
  obtain ⟨lo, -, lo_mem, below⟩ := Measure.exists_least some_item
  obtain ⟨hi, -, hi_mem, above⟩ := Measure.exists_greatest some_item
  have chained : d.ranges = Range.chain lo breaks hi := by
    rw [Draft.ranges, (h.least lo).2 ⟨lo_mem, below⟩, (h.greatest hi).2 ⟨hi_mem, above⟩, hbreaks]
    rfl
  rw [chained]
  exact Range.countP_holds_chain sorted (below x hx) (above x hx)

/-- **A legend with supplied breaks counts every value exactly once.** The source describes its
values by their bounds, their number and some breaks in order, and counts what a bucket holds;
nothing else is assumed of it. Then there is a legend, each value is in one bucket, the count of a
bucket is the number of values in it, and the counts of the buckets add up to the number of
values. -/
theorem compute_of_reports {p : Provider β ℕ} {values : Multiset β} (reports : p.Reports values)
    {parts concurrency : Value} {n : ℕ} (parts_eq : bucketCount parts = .ok n)
    (wide : ∀ jobs, ∃ width, FanOut.width concurrency jobs = .ok width) (text : β → String)
    (field : Value) :
    ∃ l, compute p (fun x => .ok (text x)) field parts concurrency = .ok l ∧
      l.stats.count = values.card ∧
      (∀ x ∈ values, l.ranges.countP (fun r => r.holds x) = 1) ∧
      l.buckets.map Bucket.count = l.ranges.map (fun r => values.countP fun x => r.holds x = true) ∧
      (l.buckets.map Bucket.count).sum = l.stats.count := by
  obtain ⟨d, draft, describes⟩ := reports.draft (Cut.between n)
  have once : ∀ x ∈ values, d.ranges.countP (fun r => r.holds x) = 1 :=
    fun x hx => describes.once hx
  refine ⟨_, compute_eq parts_eq draft reports.count wide text field, describes.count, once, ?_, ?_⟩
  · rw [List.map_map]
    rfl
  · rw [List.map_map]
    calc (d.ranges.map fun r => values.countP fun x => r.holds x = true).sum
        = values.card := sum_countP_of_once (fun (r : Range β) x => r.holds x) d.ranges once
      _ = d.stats.count := describes.count.symm

/-- A provider of the values 1, 3, 3 and 8, with breaks below the least value, at 3 twice, and
above the greatest value. -/
def outlyingBreaks : Provider ℚ ℕ where
  draft _ := .ok ⟨⟨some 1, some 8, some 3, 4⟩, [some (-5), some 3, some 3, some 20]⟩
  count _ r := .ok (Multiset.countP (fun x => r.holds x = true) {1, 3, 3, 8})

theorem outlyingBreaks_reports : outlyingBreaks.Reports {1, 3, 3, 8} where
  draft _ := by
    refine ⟨_, rfl, ⟨fun lo => ?_, fun hi => ?_, rfl, [-5, 3, 3, 20], rfl, by decide⟩⟩
    · constructor
      · rintro ⟨⟩
        decide
      · rintro ⟨mem, below⟩
        have low : lo ≤ 1 := below 1 (by decide)
        have high : ∀ x ∈ ({1, 3, 3, 8} : Multiset ℚ), 1 ≤ x := by decide
        rw [le_antisymm low (high lo mem)]
    · constructor
      · rintro ⟨⟩
        decide
      · rintro ⟨mem, above⟩
        have high : 8 ≤ hi := above 8 (by decide)
        have low : ∀ x ∈ ({1, 3, 3, 8} : Multiset ℚ), x ≤ 8 := by decide
        rw [le_antisymm (low hi mem) high]
  count _ _ := rfl

/-- None of the four values is lost or counted twice. -/
theorem compute_outlyingBreaks :
    ∃ l, compute outlyingBreaks (fun x => .ok (Numeral.ofRat x)) (.text "total_sales") (.int 5)
        .null = .ok l ∧
      l.stats.count = 4 ∧ (l.buckets.map Bucket.count).sum = 4 := by
  have wide : ∀ jobs, ∃ width, FanOut.width .null jobs = .ok width := fun _ => ⟨_, rfl⟩
  have five : bucketCount (.int 5) = .ok 5 := rfl
  obtain ⟨l, hl, count, -, -, sum⟩ :=
    compute_of_reports outlyingBreaks_reports five wide Numeral.ofRat (.text "total_sales")
  exact ⟨l, hl, count, sum.trans count⟩

end PropertyMarket.Legend
