import PropertyMarket.Proofs.Fields
import PropertyMarket.Proofs.GroupedColumns
import PropertyMarket.Proofs.ShortestDigits

/-!
# Labels do not clash

What a grouped request shows is labelled by names that are put together with underscores, and the
number of a percentile is put into one with an underscore for its point. Nothing is lost by that:
fields of a sale and aggregates have no underscore in their names, so that the parts can be told
apart again, and no written number has one, so that the point can be put back and the number be
read. Where a request does not ask for one thing twice, no two labels are the same; a row that
becomes a record keeps all its columns, and a sort key that names a label names one term.

## Main definitions

* `Computation.withPoint` — a text with a point for each underscore
* `Computation.Differ` — two computations are not the same
* `Query.Unambiguous` — labels are different, rows keep their columns, and sort keys name one term

## Main results

* `Computation.percentText_reads_back` — the number of a percentile can be read from its label
* `Computation.label_ne_of_differ`, `MetricSpec.eq_of_label_eq` — labels tell what they stand for
* `Request.unambiguous_of_asksOnce` — labels of a grouped request do not clash

## Implementation notes

That labels are different is shown by reading them back. A label is split at its first underscore,
which is possible because the names of fields and aggregates have none; so equal labels have equal
parts. The number at the end of a percentile is read as a decimal once its underscore has become a
point again, and numbers that are read back are equal if their texts are.

Percentiles are compared by the value of their number and not by its text, so that two ways of
giving one number count as the same request.
-/

namespace PropertyMarket

/-! ### Underscores

A text is split at an underscore, in front of which there is none. This is all that has to be known
of a label to take it apart. -/

/-- What is before an underscore, and what is behind it, where there is none before it. -/
theorem split_underscore {a b c d : List Char} (ha : '_' ∉ a) (hc : '_' ∉ c)
    (h : a ++ '_' :: b = c ++ '_' :: d) : a = c ∧ b = d := by
  have before {u v : List Char} (hu : '_' ∉ u) : (u ++ '_' :: v).takeWhile (· ≠ '_') = u := by
    have kept : ∀ x ∈ u, decide (x ≠ '_') = true := fun x hx =>
      decide_eq_true fun same => hu (same ▸ hx)
    rw [List.takeWhile_append_of_pos kept]
    simp
  have same : a = c := by rw [← before (v := b) ha, h, before hc]
  subst same
  exact ⟨rfl, (List.cons.inj (List.append_cancel_left h)).2⟩

/-- Names that are put together with an underscore are told apart, if the first of them has none. -/
theorem eq_of_underscored {s t u v : String} (hs : '_' ∉ s.toList) (hu : '_' ∉ u.toList)
    (h : s ++ "_" ++ t = u ++ "_" ++ v) : s = u ∧ t = v := by
  have lists : s.toList ++ '_' :: t.toList = u.toList ++ '_' :: v.toList := by
    simpa [String.toList_append] using congrArg String.toList h
  obtain ⟨first, second⟩ := split_underscore hs hu lists
  exact ⟨String.toList_inj.1 first, String.toList_inj.1 second⟩

/-- The fields of a sale have no underscore in their names. -/
theorem Field.underscore_not_mem {name : String} {f : Field}
    (h : Field.find? .transactions name = some f) : '_' ∉ name.toList := by
  have all : ∀ f ∈ Family.transactions.fields, '_' ∉ f.name.toList := by decide +kernel
  exact Field.find?_name h ▸ all f (Field.mem_fields_of_find? h)

theorem Aggregate.underscore_not_mem (a : Aggregate) : '_' ∉ (Vocabulary.word a).toList := by
  cases a <;> decide

/-! ### Numbers in labels

A written number consists of digits, a point, signs and the letter of an exponent. So an underscore
in its label can only be its point. -/

/-- No written number has an underscore. -/
theorem Numeral.underscore_not_mem_write (layout : Layout) (d : Double.Digits) :
    '_' ∉ write layout d := by
  have digits (n : ℕ) : '_' ∉ digitChars n := fun mem =>
    absurd (isDigit_of_mem_digitChars mem) (by decide)
  intro mem
  rw [write] at mem
  split at mem
  · obtain digit | point | zero := mem_positional mem
    · exact digits _ digit
    · exact absurd point (by decide)
    · exact absurd zero (by decide)
  · obtain digit | digit | point | mark | sign | zero := mem_scientific mem
    · exact digits _ digit
    · exact digits _ digit
    · exact absurd point (by decide)
    · exact absurd mark (by decide)
    · split at sign <;> exact absurd sign (by decide)
    · exact absurd zero (by decide)

theorem Double.underscore_not_mem_toText (x : Double) : '_' ∉ x.toText.toList := by
  cases x with
  | nan => decide
  | infinite s => cases s <;> decide
  | finite s m e =>
    have body : '_' ∉ (if m = 0 then "0.0" else
        String.ofList (Numeral.write Numeral.plain (shortest m e))).toList := by
      split
      · decide
      · rw [String.toList_ofList]
        exact Numeral.underscore_not_mem_write _ _
    cases s with
    | false => exact body
    | true => simpa [toText, String.toList_append] using body

namespace Computation

/-- A text with a point for each underscore, which undoes what the label of a percentile does to its
number. -/
def withPoint (text : String) : String :=
  String.ofList (text.toList.map fun c => if c = '_' then '.' else c)

theorem withPoint_withoutPoint {text : String} (h : '_' ∉ text.toList) :
    withPoint (withoutPoint text) = text := by
  rw [withPoint, withoutPoint, String.toList_ofList, List.map_map]
  have same : text.toList.map ((fun c => if c = '_' then '.' else c) ∘
      fun c => if c = '.' then '_' else c) = text.toList := by
    refine (List.map_congr_left fun c hc => ?_).trans (List.map_id _)
    have other : c ≠ '_' := fun underscore => h (underscore ▸ hc)
    by_cases point : c = '.'
    · simp [point]
    · simp [point, other]
  rw [same, String.ofList_toList]

theorem withPoint_eq_self {text : String} (h : '_' ∉ text.toList) : withPoint text = text := by
  have same : (text.toList.map fun c => if c = '_' then '.' else c) = text.toList := by
    refine (List.map_congr_left fun c hc => ?_).trans (List.map_id _)
    exact if_neg fun underscore : c = '_' => h (underscore ▸ hc)
  rw [withPoint, same, String.ofList_toList]

end Computation

/-- A whole number is written with its sign and its digits. -/
theorem intText_eq (n : ℤ) : intText n =
    String.ofList ((if decide (n < 0) then ['-'] else []) ++ digitChars n.natAbs) := by
  unfold intText
  by_cases negative : n < 0 <;> simp [negative]

theorem underscore_not_mem_intText (n : ℤ) : '_' ∉ (intText n).toList := by
  rw [intText_eq, String.toList_ofList, List.mem_append, not_or]
  refine ⟨?_, fun digit => nomatch isDigit_of_mem_digitChars digit⟩
  split <;> decide

theorem ofText?_intText (n : ℤ) :
    Decimal.ofText? (intText n) = some ⟨decide (n < 0), n.natAbs, 0⟩ := by
  obtain ⟨c, rest, first⟩ := List.exists_cons_of_ne_nil (digitChars_ne_nil n.natAbs)
  have digits := allDigits_digitChars n.natAbs
  rw [intText_eq, Decimal.ofText?_signed ⟨c, rest, first, digits c (first ▸ List.mem_cons_self)⟩,
    Decimal.readUnsigned_whole _ digits (digitChars_ne_nil _), natOfDigits_digitChars]

namespace Double

/-- The number of a percentile is not negative unless it is zero. -/
theorem IsPercent.eq_false {s : Bool} {m : ℕ} {e : ℤ} (h : IsPercent (.finite s m e)) (hm : 0 < m) :
    s = false := by
  cases s with
  | false => rfl
  | true =>
    have zero : (0 : Double) = .finite false 0 minExponent := by decide
    have least := h.2
    rw [zero] at least
    exact absurd (eq_zero_of_le_negative least) hm.ne'

end Double

namespace Computation

/-- **The number of a percentile can be read from its label**, as a decimal that is nearest to it in
binary64. -/
theorem percentText_reads_back {p : Double} (normal : p.IsNormal) (percent : p.IsPercent) :
    ∃ d, Decimal.ofText? (withPoint (percentText p)) = some d ∧ d.toDouble.value = p.value := by
  obtain ⟨s, m, e, rfl, -⟩ := percent.eq_finite
  rw [percentText]
  cases whole : (Double.finite s m e).toInt? with
  | none =>
    dsimp only
    rw [withPoint_withoutPoint (Double.underscore_not_mem_toText _)]
    obtain ⟨d, read, same⟩ := Double.toText_reads_back normal rfl
    exact ⟨d, read, by rw [same]⟩
  | some n =>
    have value := Double.value_of_toInt? whole
    refine ⟨_, (congrArg _ (withPoint_eq_self (underscore_not_mem_intText n))).trans
      (ofText?_intText n), ?_⟩
    rw [Double.value_finite] at value ⊢
    obtain rfl | h := Nat.eq_zero_or_pos m
    · -- Zero is read without a sign.
      obtain rfl : n = 0 := by
        rw [Nat.cast_zero, zero_mul, mul_zero] at value
        exact_mod_cast value.symm
      simp [Decimal.toDouble, Double.ofDecimal, Double.value_zeroOf]
    · obtain rfl := percent.eq_false h
      rw [if_neg Bool.false_ne_true, one_mul] at value
      have positive : (0 : ℚ) < n := by
        rw [← value]
        positivity
      have positive : 0 < n := by exact_mod_cast positive
      have size : ((n.natAbs : ℕ) : ℚ) * 10 ^ (0 : ℤ) = m * 2 ^ e := by
        rw [value, zpow_zero, mul_one, Nat.cast_natAbs, abs_of_pos positive]
      have same := Double.toDouble_eq_of_holds (x := ⟨decide (n < 0), n.natAbs, 0⟩) normal h
        (size ▸ Double.holds_self h e)
      rw [same, Double.value_finite, decide_eq_false (by omega)]

/-! ### Labels of what is computed

Two computations with one label are the same computation. Percentiles are told apart by their field
and their number; the price per area has a label that no percentile has. -/

/-- The number of a percentile is one of binary64, from 0 to 100. -/
def IsProper : Computation → Prop
  | percentile _ p => p.IsNormal ∧ p.IsPercent
  | pricePerArea => True

/-- Two computations are not the same: percentiles differ in their field or in the value of their
number, and the price per area is only the same as itself. -/
def Differ : Computation → Computation → Prop
  | percentile field p, percentile field' p' => field ≠ field' ∨ p.value ≠ p'.value
  | pricePerArea, pricePerArea => False
  | _, _ => True

/-- The field of a computation, if there is one, has no underscore in its name. -/
def PlainField : Computation → Prop
  | percentile field _ => '_' ∉ field.toList
  | pricePerArea => True

theorem plainField_of_compile {table : Table} {k : Computation} {p : Produced}
    (h : k.compile table .transactions = .ok p) : k.PlainField := by
  obtain ⟨_, _, _, _, rfl, hf, -⟩ | ⟨_, _, rfl, -⟩ := Computation.compile_eq_ok h
  · exact Field.underscore_not_mem hf
  · trivial

theorem underscore_mem_percentileLabel (field percent : String) :
    '_' ∈ (percentileLabel field percent).toList := by
  simp [percentileLabel, String.toList_append]

/-- **The label of a computation tells what is computed.** Two computations of plain fields that
differ in their name, their field or the value of their number have different labels. -/
theorem label_ne_of_differ {k k' : Computation} (plain : k.PlainField) (plain' : k'.PlainField)
    (proper : k.IsProper) (proper' : k'.IsProper) (differ : k.Differ k') : k.label ≠ k'.label := by
  have without : '_' ∉ "avgPricePerM2".toList := by decide
  intro same
  cases k with
  | pricePerArea =>
    cases k' with
    | pricePerArea => exact differ
    | percentile field p =>
      have mem := underscore_mem_percentileLabel field (percentText p)
      rw [← show pricePerArea.label = percentileLabel field (percentText p) from same] at mem
      exact without mem
  | percentile field p =>
    cases k' with
    | pricePerArea =>
      have mem := underscore_mem_percentileLabel field (percentText p)
      rw [show percentileLabel field (percentText p) = pricePerArea.label from same] at mem
      exact without mem
    | percentile field' p' =>
      have behind : field ++ "_" ++ percentText p = field' ++ "_" ++ percentText p' := by
        have lists := congrArg String.toList same
        simp only [label, percentileLabel, String.append_assoc, String.toList_append] at lists
        rw [← String.toList_inj]
        simpa only [String.append_assoc, String.toList_append] using
          List.append_cancel_left lists
      obtain ⟨fields, texts⟩ := eq_of_underscored plain plain' behind
      obtain ⟨d, read, value⟩ := percentText_reads_back proper.1 proper.2
      obtain ⟨d', read', value'⟩ := percentText_reads_back proper'.1 proper'.2
      rw [texts] at read
      obtain rfl := Option.some.inj (read.symm.trans read')
      exact differ.elim (absurd fields) (absurd (value.symm.trans value'))

end Computation

/-- The label of an aggregate tells the aggregate and the field, since the first underscore in it is
the one between them. -/
theorem MetricSpec.eq_of_label_eq {table : Table} {m m' : MetricSpec} {p p' : Produced}
    (h : m.compile table .transactions = .ok p) (h' : m'.compile table .transactions = .ok p')
    (same : m.label = m'.label) : (m.metric, m.field) = (m'.metric, m'.field) := by
  obtain ⟨a, -, -, hm, -⟩ := MetricSpec.compile_eq_ok h
  obtain ⟨a', -, -, hm', -⟩ := MetricSpec.compile_eq_ok h'
  obtain ⟨metrics, fields⟩ := eq_of_underscored (hm ▸ a.underscore_not_mem)
    (hm' ▸ a'.underscore_not_mem) same
  rw [metrics, fields]

/-! ### Labels of a grouped request

The labels of a request are the names that it groups by, and the labels of what it computes. No name
of a field has an underscore, and the labels of what is computed have one, but for the price per
area. -/

/-- Labels are different, a row keeps all its columns when it becomes a record, and a sort key that
names a label names one term. -/
structure Query.Unambiguous {σ : Type} (q : Query σ) (labels : List String) : Prop where
  labelled : q.outputs.map Output.label = labels.map some
  distinct : labels.Nodup
  rows : ∀ values : List Value, values.length = labels.length →
    Record.putAll [] (labels.zip values) = labels.zip values
  sorts : ∀ k ∈ q.sort, ∀ label, k.target = .label label →
    ∃! o, o ∈ q.outputs ∧ o.label = some label

namespace Request

/-- A grouped request does not ask for one thing twice. This is asked of each of its two lists by
itself; between them labels cannot clash. -/
def AsksOnce : Request → Prop
  | sales (.aggregate q) =>
    q.groupBy.Nodup ∧ (q.metrics.map fun m => (m.metric, m.field)).Nodup
  | sales (.calculate q) =>
    q.groupBy.Nodup ∧ (∀ k ∈ q.computations, k.IsProper) ∧
      q.computations.Pairwise Computation.Differ
  | _ => False

variable {r : Request} {q : Statement} {groups produced : List Produced}

theorem isGrouped_of_asksOnce (once : r.AsksOnce) : r.IsGrouped := by
  cases r with
  | rollup | delta | slope => exact once
  | sales o =>
    cases o with
    | query => exact once
    | aggregate | calculate => trivial

/-- What is computed has an underscore in its label, or is the price per area. -/
theorem underscore_mem_computedLabels {label : String} (h : label ∈ r.computedLabels) :
    '_' ∈ label.toList ∨ label = "avgPricePerM2" := by
  cases r with
  | rollup | delta | slope => nomatch h
  | sales o =>
    cases o with
    | query => nomatch h
    | aggregate args =>
      obtain ⟨m, -, rfl⟩ := List.mem_map.1 h
      exact .inl (by simp [MetricSpec.label, String.toList_append])
    | calculate args =>
      obtain ⟨k, -, rfl⟩ := List.mem_map.1 h
      cases k with
      | percentile field p => exact .inl (Computation.underscore_mem_percentileLabel _ _)
      | pricePerArea => exact .inr rfl

theorem nodup_computedLabels (once : r.AsksOnce) (h : r.produced = .ok produced) :
    r.computedLabels.Nodup := by
  cases r with
  | rollup | delta | slope => exact once.elim
  | sales o =>
    cases o with
    | query => exact once.elim
    | aggregate args =>
      have compiled := Outcome.exists_mapM_eq_ok_iff.1 ⟨produced, h⟩
      refine List.pairwise_map.2 ((List.pairwise_map.1 once.2).imp_of_mem ?_)
      intro m m' hm hm' differ same
      obtain ⟨p, hp⟩ := compiled m hm
      obtain ⟨p', hp'⟩ := compiled m' hm'
      exact differ (MetricSpec.eq_of_label_eq hp hp' same)
    | calculate args =>
      have compiled := Outcome.exists_mapM_eq_ok_iff.1 ⟨produced, h⟩
      refine List.pairwise_map.2 (once.2.2.imp_of_mem ?_)
      intro k k' hk hk' differ
      obtain ⟨p, hp⟩ := compiled k hk
      obtain ⟨p', hp'⟩ := compiled k' hk'
      exact Computation.label_ne_of_differ (Computation.plainField_of_compile hp)
        (Computation.plainField_of_compile hp') (once.2.1 k hk) (once.2.1 k' hk') differ

theorem nodup_groupBy (once : r.AsksOnce) : r.groupBy.Nodup := by
  cases r with
  | rollup | delta | slope => exact once.elim
  | sales o =>
    cases o with
    | query => exact once.elim
    | aggregate | calculate => exact once.1

theorem nodup_ownLabels (once : r.AsksOnce) (built : r.Built q groups produced) :
    r.ownLabels.Nodup := by
  have family := (table_of_isGrouped (isGrouped_of_asksOnce once)).2
  refine List.nodup_append.2 ⟨nodup_groupBy once, nodup_computedLabels once built.produced_eq, ?_⟩
  rintro name hname _ computed rfl
  -- The name of a field has no underscore, and no field has the name of the price per area.
  obtain ⟨p, hp⟩ := Outcome.exists_mapM_eq_ok_iff.1 ⟨groups, built.groupBy_eq⟩ name hname
  obtain ⟨f, _, hf, -⟩ := Produced.groupBy_eq_ok hp
  rw [family] at hf
  obtain underscore | rfl := underscore_mem_computedLabels computed
  · exact Field.underscore_not_mem hf underscore
  · have absent : (Field.find? .transactions "avgPricePerM2").isSome = false := by decide +kernel
    rw [hf] at absent
    nomatch absent

/-- **Labels of a grouped request do not clash.** If a request asks for nothing twice, the columns
that its statement shows have different labels, and each of them is the label of one thing that was
asked for. So a row that comes back can be read by its labels, and a sort key that is one of them
means one column. -/
theorem unambiguous_of_asksOnce (once : r.AsksOnce) (h : r.statement = .ok q) :
    q.Unambiguous r.ownLabels := by
  obtain ⟨groups, produced, built⟩ := built_of_statement h
  have grouped := isGrouped_of_asksOnce once
  have distinct := nodup_ownLabels once built
  have labels := built.labels_eq grouped
  have labelled : q.outputs.map Output.label = r.ownLabels.map some := by
    rw [← labels, built.outputs_eq]
    cases r with
    | rollup | delta | slope => exact once.elim
    | sales o =>
      cases o with
      | query => exact once.elim
      | aggregate | calculate =>
        show ((groups ++ produced).map Produced.output).map Output.label =
          ((groups ++ produced).map Produced.label).map some
        rw [List.map_map, List.map_map]
        rfl
  refine ⟨labelled, distinct, fun values width => ?_, fun k hk label target => ?_⟩
  · have names : ([] ++ r.ownLabels.zip values : Record).names = r.ownLabels :=
      List.map_fst_zip width.ge
    exact Record.putAll_eq_append (by rwa [names])
  · have own : label ∈ r.ownLabels := by
      have keys := built.sort_eq
      rw [labels] at keys
      obtain ⟨s, -, hs⟩ := Outcome.exists_of_mem_mapM keys k hk
      obtain ⟨own, rfl⟩ | ⟨c, -, rfl⟩ := SortSpec.compile_eq_ok hs
      · exact SortTarget.label.inj target ▸ own
      · nomatch target
    have distinct' : (q.outputs.map Output.label).Nodup := by
      rw [labelled]
      exact distinct.map (Option.some_injective _)
    have shown : some label ∈ q.outputs.map Output.label := by
      rw [labelled]
      exact List.mem_map_of_mem own
    obtain ⟨o, ho, same⟩ := List.mem_map.1 shown
    exact ⟨o, ⟨ho, same⟩, fun o' ho' =>
      List.inj_on_of_nodup_map distinct' ho'.1 ho (ho'.2.trans same.symm)⟩

/-- The price per area by year, and percentiles at 12.5 percent and at a tiny part of one. -/
def percentilesByYear : Request :=
  .sales (.calculate {
    groupBy := ["year"]
    computations := [.pricePerArea, .percentile "price" (Double.ofDecimal false 125 (-1)),
      .percentile "price" (Double.ofDecimal false 1 (-5))]
    sort := [⟨"percentile_price_12_5", some .desc⟩] })

theorem unambiguous_percentilesByYear :
    percentilesByYear.AsksOnce ∧ ∃ q, percentilesByYear.statement = .ok q ∧ q.Unambiguous
      ["year", "avgPricePerM2", "percentile_price_12_5", "percentile_price_1e-05"] := by
  have proper (digits : ℕ) (e : ℤ) (percent : (Double.ofDecimal false digits e).IsPercent) :
      (Computation.percentile "price" (Double.ofDecimal false digits e)).IsProper :=
    ⟨Double.isNormal_ofDecimal false digits e, percent⟩
  have once : percentilesByYear.AsksOnce := by
    refine ⟨by decide, ?_, ?_⟩
    · refine List.forall_mem_cons.2 ⟨trivial, List.forall_mem_cons.2 ⟨?_, ?_⟩⟩
      · exact proper 125 (-1) (by decide +kernel)
      · exact List.forall_mem_singleton.2 (proper 1 (-5) (by decide +kernel))
    · refine .cons ?_ (.cons ?_ (List.pairwise_singleton _ _))
      · exact List.forall_mem_cons.2 ⟨trivial, List.forall_mem_singleton.2 trivial⟩
      · refine List.forall_mem_singleton.2 (.inr ?_)
        decide +kernel
  have labels : percentilesByYear.ownLabels =
      ["year", "avgPricePerM2", "percentile_price_12_5", "percentile_price_1e-05"] := by
    decide +kernel
  obtain ⟨q, hq⟩ : ∃ q, percentilesByYear.statement = .ok q := ⟨_, rfl⟩
  exact ⟨once, q, hq, labels ▸ unambiguous_of_asksOnce once hq⟩

end Request

end PropertyMarket
