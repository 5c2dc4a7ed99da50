import Mathlib.Algebra.Order.Ring.Int
import Mathlib.Tactic.Ring
import PropertyMarket.Compile.Produce
import PropertyMarket.Proofs.Checked

/-!
# How percentages are written in labels

The label of a percentile ends with its number of percent. A whole number is written in digits; any
other is written with the fewest digits that read back, which is positional unless the number is
small or large. A number of percent is at most a hundred, so its exponent, if one is written, is
negative: of all the characters of written numbers, the sign `+` never gets into a label.

## Main definitions

* `Double.IsPercent` — a number from 0 to 100
* `isLabelChar`, `IsLabelText` — a letter, a digit, `_` or `-`, and a text of these

## Main results

* `Double.shortest_point_le` — the point of a number up to a hundred is no further than its sixth
  digit
* `Computation.isLabelText_percentText` — a number of percent is written in the characters of labels

## Implementation notes

The alphabet of labels lacks `+` and `.`. A point is replaced by an underscore wherever it stands,
so only the sign of a positive exponent has to be excluded, and that is written only for numbers of
more than sixteen digits in front of the point. The bound that is proved on the way, six digits, is
not sharp; it is what the search for the fewest digits allows to see without following it.
-/

namespace PropertyMarket

/-! ### Counting digits

How many digits a number has is a matter of powers of ten. These facts are what the bounds on the
point below are added up from. -/

theorem digitCount_le_iff {n k : Nat} (hk : 0 < k) : digitCount n ≤ k ↔ n < 10 ^ k :=
  Nat.length_toDigits_le_iff (by decide) hk

/-- Without its last digit a number has one digit fewer. -/
theorem digitCount_div_ten {n : Nat} (h : 10 ≤ n) : digitCount n = digitCount (n / 10) + 1 := by
  rw [digitCount, digitChars, Nat.toDigits_of_base_le (by decide) h, List.length_append]
  rfl

theorem isDigit_of_mem_digitChars {n : Nat} {c : Char} (h : c ∈ digitChars n) : c.isDigit = true :=
  Nat.isDigit_of_mem_toDigits (by decide) (by decide) h

theorem roundQuotient_le (num den : Nat) : roundQuotient num den ≤ num / den + 1 := by
  unfold roundQuotient
  split
  · omega
  split
  · omega
  · omega

namespace Double

/-! ### The point of the fewest digits

The digits are searched for from few to many, and zeros at their end are dropped. Neither step moves
the point by more than a digit or so, and it starts at the size of the number. -/

/-- A number up to a hundred, in the units of its interval. -/
theorem interval_value_le {m : Nat} {e : Int} (h : m * 2 ^ e.toNat ≤ 100 * 2 ^ (-e).toNat) :
    (interval m e).value ≤ 100 * (interval m e).den := by
  have exponents : 2 + (e - 2).toNat + (-e).toNat = e.toNat + (2 - e).toNat := by omega
  refine Nat.le_of_mul_le_mul_right ?_ (Nat.two_pow_pos (-e).toNat)
  calc 4 * m * 2 ^ (e - 2).toNat * 2 ^ (-e).toNat
      = m * 2 ^ (2 + (e - 2).toNat + (-e).toNat) := by ring
    _ = m * 2 ^ e.toNat * 2 ^ (2 - e).toNat := by rw [exponents]; ring
    _ ≤ 100 * 2 ^ (-e).toNat * 2 ^ (2 - e).toNat := Nat.mul_le_mul_right _ h
    _ = 100 * 2 ^ (2 - e).toNat * 2 ^ (-e).toNat := by ring

theorem decimalPoint_le {num den : Nat} (h : num ≤ 100 * den) : decimalPoint num den ≤ 3 := by
  unfold decimalPoint
  split
  · have quotient : num / den < 10 ^ 3 := by
      have : num / den ≤ 100 := Nat.div_le_of_le_mul (by rwa [Nat.mul_comm])
      omega
    exact_mod_cast (digitCount_le_iff (by decide)).2 quotient
  · have : 0 < digitCount (den / num) := Nat.length_toDigits_pos
    dsimp only
    split <;> omega

variable {i : Interval} {point : Int}

/-- A candidate with `n` digits is no more than one unit of its grid above the value. -/
theorem candidate?_lt (h : i.value ≤ 100 * i.den) {n d : Nat} (hd : candidate? i point n = some d) :
    d < 10 ^ (((n : Int) - point).toNat + 3) := by
  set s := ((n : Int) - point).toNat with hs
  set t := (-((n : Int) - point)).toNat with ht
  have low : i.value * 10 ^ s / (i.den * 10 ^ t) ≤ 100 * 10 ^ s := by
    refine Nat.div_le_of_le_mul ?_
    calc i.value * 10 ^ s
        ≤ 100 * i.den * 10 ^ s := Nat.mul_le_mul_right _ h
      _ ≤ 100 * i.den * 10 ^ s * 10 ^ t := Nat.le_mul_of_pos_right _ (Nat.pow_pos (by decide))
      _ = i.den * 10 ^ t * (100 * 10 ^ s) := by ring
  have near : d ≤ i.value * 10 ^ s / (i.den * 10 ^ t) + 1 := by
    unfold candidate? at hd
    simp only [Nat.pow_eq, ← hs, ← ht] at hd
    split at hd
    · exact Option.some.inj hd ▸ roundQuotient_le _ _
    · exact Option.some.inj hd ▸ Nat.le_succ _
    · exact (Option.some.inj hd).ge
    · nomatch hd
  have unit : 0 < 10 ^ s := Nat.pow_pos (by decide)
  rw [Nat.pow_add]
  omega

/-- The digits that are found have a point near that of the value. -/
theorem searchDigits_point_le (h : i.value ≤ 100 * i.den) (hpoint : point ≤ 3) (fuel n : Nat) :
    (searchDigits i point fuel n).point + digitCount (searchDigits i point fuel n).digits ≤ 6 := by
  have count {n d : Nat} (hd : d < 10 ^ (((n : Int) - point).toNat + 3)) :
      point - n + digitCount d ≤ 6 := by
    have := (digitCount_le_iff (Nat.succ_pos _)).2 hd
    omega
  induction fuel generalizing n with
  | zero =>
    have last : (candidate? i point n).getD 0 < 10 ^ (((n : Int) - point).toNat + 3) := by
      cases hd : candidate? i point n with
      | none => exact Nat.pow_pos (by decide)
      | some d => exact candidate?_lt h hd
    have := count last
    simp only [searchDigits]
    omega
  | succ fuel ih =>
    rw [searchDigits]
    cases hd : candidate? i point n with
    | none => exact ih (n + 1)
    | some d => exact count (candidate?_lt h hd)

/-- Dropping zeros leaves the point where it is. -/
theorem stripZeros_point_le (fuel d : Nat) (e : Int) :
    (stripZeros fuel d e).2 + digitCount (stripZeros fuel d e).1 ≤ e + digitCount d := by
  induction fuel generalizing d e with
  | zero => exact le_refl _
  | succ fuel ih =>
    rw [stripZeros]
    split
    · rename_i zero_last
      have count := digitCount_div_ten (n := d) (by omega)
      have := ih (d / 10) (e + 1)
      omega
    · exact le_refl _

/-- The point of a number up to a hundred is no further than its sixth digit. -/
theorem shortest_point_le {m : Nat} {e : Int} (h : m * 2 ^ e.toNat ≤ 100 * 2 ^ (-e).toNat) :
    (shortest m e).point ≤ 6 := by
  have value := interval_value_le h
  have found := searchDigits_point_le value (decimalPoint_le value) 16 1
  have kept := stripZeros_point_le 20
    (searchDigits (interval m e) (decimalPoint (interval m e).value (interval m e).den) 16 1).digits
    (searchDigits (interval m e) (decimalPoint (interval m e).value (interval m e).den) 16 1).point
  exact kept.trans found

/-! ### Numbers from 0 to 100

The two comparisons that admit a number of percent are made in binary64. A number that passes both
is finite, and its size as a fraction of natural numbers is at most a hundred. -/

/-- A number from 0 to 100, as the reading of a computation admits it. A negative zero passes, and
NaN does not. -/
def IsPercent (p : Double) : Prop := p.le 100 = true ∧ Double.le 0 p = true

instance (p : Double) : Decidable p.IsPercent := inferInstanceAs (Decidable (_ ∧ _))

theorem le_finite {m n : Nat} {e f : Int} (h : (finite false m e).le (finite false n f) = true) :
    m * 2 ^ e.toNat * 2 ^ (-f).toNat ≤ n * 2 ^ f.toNat * 2 ^ (-e).toNat := by
  simp only [le, compare?, quotient?, Nat.pow_eq, Bool.or_eq_true, beq_iff_eq, Option.some.injEq,
    compare_lt_iff_lt, compare_eq_iff_eq, Bool.false_eq_true, if_false] at h
  exact_mod_cast h.elim le_of_lt le_of_eq

/-- No negative number is at least zero. -/
theorem eq_zero_of_le_negative {m : Nat} {e f : Int}
    (h : (finite false 0 f).le (finite true m e) = true) : m = 0 := by
  have least : 0 ≤ -((m * 2 ^ e.toNat : Nat) : Int) * (2 ^ (-f).toNat : Nat) := by
    simp only [le, compare?, quotient?, Nat.pow_eq, Bool.or_eq_true, beq_iff_eq, Option.some.injEq,
      compare_lt_iff_lt, compare_eq_iff_eq] at h
    simpa using h.elim le_of_lt le_of_eq
  have size : m * 2 ^ e.toNat = 0 := by
    have := nonneg_of_mul_nonneg_left least (by exact_mod_cast Nat.two_pow_pos _)
    omega
  exact (Nat.mul_eq_zero.1 size).resolve_right (Nat.two_pow_pos _).ne'

/-- A number of percent is finite, and its size is at most a hundred. -/
theorem IsPercent.eq_finite {p : Double} (h : p.IsPercent) :
    ∃ s m e, p = .finite s m e ∧ m * 2 ^ e.toNat ≤ 100 * 2 ^ (-e).toNat := by
  obtain ⟨most, least⟩ := h
  have hundred : (100 : Double) = .finite false (100 * 2 ^ 46) (-46) := by decide
  have zero : (0 : Double) = .finite false 0 minExponent := by decide
  cases p with
  | nan => nomatch most
  | infinite s =>
    cases s with
    | false => exact absurd most (by decide)
    | true => exact absurd least (by decide)
  | finite s m e =>
    refine ⟨s, m, e, rfl, ?_⟩
    cases s with
    | false =>
      rw [hundred] at most
      have scaled : m * 2 ^ e.toNat * 2 ^ 46 ≤ 100 * 2 ^ (-e).toNat * 2 ^ 46 := by
        calc m * 2 ^ e.toNat * 2 ^ 46
            ≤ 100 * 2 ^ 46 * 2 ^ (0 : Int).toNat * 2 ^ (-e).toNat := le_finite most
          _ = 100 * 2 ^ (-e).toNat * 2 ^ 46 := by rw [Int.toNat_zero]; ring
      exact Nat.le_of_mul_le_mul_right scaled (Nat.two_pow_pos 46)
    | true =>
      rw [zero] at least
      rw [eq_zero_of_le_negative least, Nat.zero_mul]
      exact Nat.zero_le _

end Double

/-! ### Computations that have been read

Whatever stands for a number of percent is checked after it has been converted, so what a
computation holds is within the bounds. -/

theorem Computation.isPercent_of_readPercent {v : Value} {p : Double}
    (h : readPercent v = .valid p) : p.IsPercent := by
  obtain ⟨read, -, h⟩ := Checked.andThen_eq_valid h
  split at h
  · nomatch h
  split at h
  · nomatch h
  · rename_i most least
    obtain rfl : read = p := by injection h
    exact ⟨by simpa using most, by simpa using least⟩

/-- A computation that has been read has a number of percent from 0 to 100. -/
theorem Computation.isPercent_of_read {v : Value} {name : String} {p : Double}
    (h : read v = .valid (percentile name p)) : p.IsPercent := by
  cases v with
  | record r =>
    simp only [read] at h
    split at h
    · nomatch h
    split at h
    · rename_i tag _
      have h := Checked.under_eq_valid h
      cases tag with
      | percentile =>
        obtain ⟨_, _, hnamed, hpercent, same⟩ := Checked.seq_eq_valid.1 h
        obtain ⟨_, _, htagged, -, rfl⟩ := Checked.seq_eq_valid.1 hnamed
        obtain ⟨_, -, rfl⟩ := Checked.map_eq_valid htagged
        obtain ⟨-, rfl⟩ := Computation.percentile.inj same
        obtain ⟨_, hread⟩ := Key.required_eq_valid hpercent
        exact isPercent_of_readPercent hread
      | pricePerArea =>
        obtain ⟨_, -, same⟩ := Checked.map_eq_valid h
        nomatch same
    · nomatch h
  | _ => nomatch h

/-! ### Characters

Every character that a number is written in belongs to a digit, a point, an exponent or a sign, and
the cases are gone through for the two ways of writing. -/

/-- A letter, a digit, `_` or `-`: what may stand in a label. -/
def isLabelChar (c : Char) : Bool := c.isAlphanum || c == '_' || c == '-'

/-- A text of letters, digits, `_` and `-`. No quote and no blank is among them, so it cannot end a
name. -/
def IsLabelText (s : String) : Prop := ∀ c ∈ s.toList, isLabelChar c = true

-- Only the characters of the text are looked at, not all characters there are.
instance : DecidablePred IsLabelText := fun s =>
  decidable_of_iff (s.toList.all isLabelChar = true) List.all_eq_true

theorem IsLabelText.append {s t : String} (hs : IsLabelText s) (ht : IsLabelText t) :
    IsLabelText (s ++ t) := by
  intro c hc
  rw [String.toList_append, List.mem_append] at hc
  exact hc.elim (hs c) (ht c)

theorem isLabelChar_of_isDigit {c : Char} (h : c.isDigit = true) : isLabelChar c = true := by
  simp [isLabelChar, Char.isAlphanum, h]

namespace Numeral

/-- A character of a number whose exponent, if it is written, is negative. -/
def isPlainChar (c : Char) : Bool := isLabelChar c || c == '.'

theorem isPlainChar_of_mem_digitChars {n : Nat} {c : Char} (h : c ∈ digitChars n) :
    isPlainChar c = true := by
  rw [isPlainChar, isLabelChar_of_isDigit (isDigit_of_mem_digitChars h), Bool.true_or]

theorem mem_positional {n : Nat} {point : Int} {c : Char}
    (h : c ∈ positional (digitChars n) point) : c ∈ digitChars n ∨ c = '.' ∨ c = '0' := by
  unfold positional at h
  split at h
  · simp only [List.cons_append, List.mem_cons, List.mem_append, List.mem_replicate] at h
    tauto
  split at h
  · simp only [List.mem_cons, List.mem_append, List.mem_replicate, List.not_mem_nil] at h
    tauto
  · simp only [List.mem_cons, List.mem_append] at h
    exact h.elim (fun h => .inl (List.mem_of_mem_take h))
      (·.elim (.inr ∘ .inl) fun h => .inl (List.mem_of_mem_drop h))

theorem mem_scientific {layout : Layout} {n : Nat} {point : Int} {c : Char}
    (h : c ∈ scientific layout (digitChars n) point) :
    c ∈ digitChars n ∨ c ∈ digitChars (point - 1).natAbs ∨ c = '.' ∨ c = 'e' ∨
      c = (if point - 1 < 0 then '-' else '+') ∨ c = '0' := by
  simp only [scientific] at h
  generalize digitChars n = digits at h ⊢
  obtain _ | ⟨first, _ | ⟨second, rest⟩⟩ := digits <;>
    simp only [padLeft, List.mem_cons, List.mem_append, List.mem_replicate] at h ⊢ <;> tauto

theorem isPlainChar_of_mem_positional {n : Nat} {point : Int} {c : Char}
    (h : c ∈ positional (digitChars n) point) : isPlainChar c = true := by
  rcases mem_positional h with digit | rfl | rfl
  · exact isPlainChar_of_mem_digitChars digit
  · rfl
  · rfl

theorem isPlainChar_of_mem_scientific {layout : Layout} {n : Nat} {point : Int}
    (hpoint : point ≤ 0) {c : Char} (h : c ∈ scientific layout (digitChars n) point) :
    isPlainChar c = true := by
  have sign : point - 1 < 0 := by omega
  have characters := mem_scientific h
  rw [if_pos sign] at characters
  rcases characters with digit | digit | rfl | rfl | rfl | rfl
  · exact isPlainChar_of_mem_digitChars digit
  · exact isPlainChar_of_mem_digitChars digit
  all_goals rfl

/-- A number whose point is not far to the right is written without the sign `+`. -/
theorem isPlainChar_of_mem_write {d : Double.Digits} (h : d.point ≤ 16) {c : Char}
    (hc : c ∈ write plain d) : isPlainChar c = true := by
  rw [write] at hc
  by_cases near : plain.minPoint ≤ d.point ∧ d.point ≤ plain.maxPoint
  · rw [if_pos near] at hc
    exact isPlainChar_of_mem_positional hc
  · rw [if_neg near] at hc
    have small : d.point < -3 := by
      by_contra hmin
      exact near ⟨Int.not_lt.1 hmin, h⟩
    exact isPlainChar_of_mem_scientific (by omega) hc

end Numeral

/-- A number of percent is written without the sign `+`. -/
theorem Double.IsPercent.isPlainChar_toText {p : Double} (h : p.IsPercent) :
    ∀ c ∈ p.toText.toList, Numeral.isPlainChar c = true := by
  obtain ⟨s, m, e, rfl, bound⟩ := h.eq_finite
  have body : ∀ c ∈ (if m = 0 then "0.0" else
      String.ofList (Numeral.write Numeral.plain (shortest m e))).toList,
      Numeral.isPlainChar c = true := by
    split
    · exact List.all_eq_true.1 (by decide)
    · intro c hc
      rw [String.toList_ofList] at hc
      exact Numeral.isPlainChar_of_mem_write ((shortest_point_le bound).trans (by decide)) hc
  cases s with
  | false => exact body
  | true =>
    intro c hc
    simp only [toText, if_true, String.toList_append, List.mem_append] at hc
    obtain sign | digit := hc
    · obtain rfl : c = '-' := by simpa using sign
      rfl
    · exact body c digit

theorem isLabelText_intText (n : Int) : IsLabelText (intText n) := by
  intro c hc
  have digits : c = '-' ∨ c ∈ digitChars n.natAbs := by
    unfold intText at hc
    simp only at hc
    split at hc
    · simpa [String.toList_append] using hc
    · exact .inr (by simpa using hc)
  obtain rfl | digit := digits
  · rfl
  · exact isLabelChar_of_isDigit (isDigit_of_mem_digitChars digit)

namespace Computation

theorem isLabelText_withoutPoint {text : String}
    (h : ∀ c ∈ text.toList, Numeral.isPlainChar c = true) : IsLabelText (withoutPoint text) := by
  intro c hc
  rw [withoutPoint, String.toList_ofList, List.mem_map] at hc
  obtain ⟨d, hd, rfl⟩ := hc
  split
  · rfl
  · rename_i other
    simpa [Numeral.isPlainChar, other] using h d hd

/-- A number of percent is written in the characters of labels: a whole number in digits, and any
other one with an underscore for its point. -/
theorem isLabelText_percentText {p : Double} (h : p.IsPercent) : IsLabelText (percentText p) := by
  rw [percentText]
  split
  · exact isLabelText_intText _
  · exact isLabelText_withoutPoint h.isPlainChar_toText

end Computation

end PropertyMarket
