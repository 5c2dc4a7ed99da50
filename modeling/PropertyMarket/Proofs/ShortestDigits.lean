import PropertyMarket.Proofs.Overflow
import PropertyMarket.Proofs.WrittenDigits

/-!
# The fewest digits read back

A binary64 number is written with the fewest digits that lie in its interval, and what lies in the
interval is rounded to the number. So a written number reads back, and different numbers are
written differently.

The search for digits ends because seventeen suffice: a step of the seventeenth digit is less than
a ten thousand billionth of the number, and the interval is wider than that. It is narrowest, in
units of the last bit, above a power of two, where only three quarters of a unit are left; but there
a number has the fewest units, so the step is shorter as well.

## Main definitions

* `Double.Normal`, `Double.IsNormal` — the significand has 53 bits, or the exponent is the least one
* `Double.Interval.Holds` — a rational lies in an interval
* `Double.Digits.value` — the rational that decimal digits denote

## Main results

* `Double.ofQuotient_eq_of_holds` — what lies in the interval of a number is rounded to it
* `Double.exists_candidate` — seventeen digits suffice
* `Double.shortest_holds` — the fewest digits lie in the interval
* `Double.toText_reads_back` — a written number reads back

## Implementation notes

The model writes a number in three steps: it searches digits of growing length, drops zeros at the
end of those it finds, and lays them out. The invariant of all three is that the digits denote a
rational in the interval of the number, stated with `Interval.Holds` in place of the test on natural
numbers that the search makes. What is read from the text denotes the same rational, and one theorem
about rounding then gives the number back.
-/

namespace PropertyMarket

namespace Double

/-! ### Normal numbers

A finite binary64 number can be given by several pairs of a significand and an exponent, one of
which the program uses. Two numbers are only compared as they stand once both are in that form. -/

/-- A significand and an exponent of binary64: 53 bits, or fewer at the least exponent. Then no
other pair denotes the same number. -/
structure Normal (m : ℕ) (e : ℤ) : Prop where
  least : minExponent ≤ e
  greatest : e ≤ maxExponent
  bits : m < 2 ^ precision
  full : e = minExponent ∨ 2 ^ (precision - 1) ≤ m

/-- A number of binary64 in its one form. Infinities and NaN have no other form, and what is rounded
to binary64 is in it. -/
def IsNormal : Double → Prop
  | .finite _ m e => Normal m e
  | _ => True

/-- Zero is kept in the least unit. -/
theorem normal_zero : Normal 0 minExponent := ⟨le_rfl, by decide, by decide, .inl rfl⟩

/-- Rounding only builds numbers in their one form. -/
theorem isNormal_ofQuotient (s : Bool) (num : ℕ) {den : ℕ} (h : 0 < den) :
    (ofQuotient s num den).IsNormal := by
  have packed {m : ℕ} {e : ℤ} (least : minExponent ≤ e) (bits : m < 2 ^ precision)
      (full : e = minExponent ∨ 2 ^ (precision - 1) ≤ m) : (pack s m e).IsNormal := by
    unfold pack
    split
    · trivial
    · next room => exact ⟨least, not_lt.1 room, bits, full⟩
  obtain rfl | hn := Nat.eq_zero_or_pos num
  · exact normal_zero
  have unit := isUnitOf_unitExponent hn h
  have size := inUnits_div num den (unitExponent num den)
  have rounded := abs_le.1 (abs_sub_roundQuotient_le (inUnits_pos h num (unitExponent num den))
    (inUnits num den (unitExponent num den)).1)
  rw [size] at rounded
  simp only [ofQuotient, hn.ne', if_false, Nat.pow_eq]
  generalize unitExponent num den = e at *
  generalize roundQuotient (inUnits num den e).1 (inUnits num den e).2 = m at *
  have positive : (0 : ℚ) < 2 ^ e := by positivity
  split
  · next carry => exact packed (by have := unit.least; omega) (by decide) (.inr le_rfl)
  · next fits =>
    have most : (m : ℚ) < 2 ^ precision + 1 := by
      have above := (div_lt_iff₀ positive).2 unit.above
      linarith [rounded.1]
    have most : m < 2 ^ precision + 1 := by exact_mod_cast most
    refine packed unit.least (by omega) (unit.below.imp id fun enough => ?_)
    have few : (2 ^ (precision - 1) : ℚ) < m + 1 := by
      have below := (le_div_iff₀ positive).2 enough
      linarith [rounded.2]
    have few : 2 ^ (precision - 1) < m + 1 := by exact_mod_cast few
    omega

theorem isNormal_ofDecimal (s : Bool) (digits : ℕ) (k : ℤ) :
    (ofDecimal s digits k).IsNormal := by
  unfold ofDecimal
  split_ifs
  · exact normal_zero
  · trivial
  · exact normal_zero
  · exact isNormal_ofQuotient s _ (Nat.pow_pos (by decide))

/-! ### Intervals

The interval of a number holds what is nearer to it than to any other number, and its ends if ties
go to it. The gap below is only half as long where the next number has a smaller unit. -/

/-- A rational lies in an interval, its ends included if the interval is closed. -/
def Interval.Holds (i : Interval) (y : ℚ) : Prop :=
  if i.closed then (i.low : ℚ) / i.den ≤ y ∧ y ≤ i.high / i.den
  else (i.low : ℚ) / i.den < y ∧ y < i.high / i.den

theorem Interval.contains_iff {i : Interval} (positive : 0 < i.den) {num den : ℕ} (h : 0 < den) :
    i.contains num den = true ↔ i.Holds (num / den) := by
  have hi : (0 : ℚ) < i.den := by exact_mod_cast positive
  have hden : (0 : ℚ) < den := by exact_mod_cast h
  unfold contains Holds
  split
  · rw [Bool.and_eq_true, decide_eq_true_eq, decide_eq_true_eq, div_le_div_iff₀ hi hden,
      div_le_div_iff₀ hden hi]
    exact_mod_cast Iff.rfl
  · rw [Bool.and_eq_true, decide_eq_true_eq, decide_eq_true_eq, div_lt_div_iff₀ hi hden,
      div_lt_div_iff₀ hden hi]
    exact_mod_cast Iff.rfl

/-- How far the interval of a number reaches down, in units of its last bit. -/
def gapBelow (m : ℕ) (e : ℤ) : ℚ :=
  if m = 2 ^ (precision - 1) ∧ minExponent < e then 1 / 4 else 1 / 2

variable {m : ℕ} {e : ℤ}

theorem interval_den_pos (m : ℕ) (e : ℤ) : 0 < (interval m e).den := Nat.pow_pos (by decide)

theorem zpow_quarter (e : ℤ) : (2 : ℚ) ^ (e - 2).toNat / 2 ^ (2 - e).toNat = 2 ^ e / 4 := by
  have := two_zpow_eq (e - 2)
  rw [neg_sub, zpow_sub₀ two_ne_zero] at this
  rw [← this]
  norm_num

/-- The interval of a number around the number. -/
theorem interval_bounds (h : 0 < m) (e : ℤ) :
    ((interval m e).low : ℚ) / (interval m e).den = (m - gapBelow m e) * 2 ^ e ∧
      ((interval m e).value : ℚ) / (interval m e).den = m * 2 ^ e ∧
      ((interval m e).high : ℚ) / (interval m e).den = (m + 1 / 2) * 2 ^ e := by
  have quarter := zpow_quarter e
  have scaled (a : ℚ) : a * (2 : ℚ) ^ (e - 2).toNat / 2 ^ (2 - e).toNat = a / 4 * 2 ^ e := by
    rw [mul_div_assoc, quarter]
    ring
  have gap : ((if m = 2 ^ (precision - 1) ∧ minExponent < e then 1 else 2 : ℕ) : ℚ) =
      4 * gapBelow m e := by
    rw [gapBelow]
    split <;> norm_num
  have less : (if m = 2 ^ (precision - 1) ∧ minExponent < e then 1 else 2) ≤ 4 * m := by
    split <;> omega
  refine ⟨?_, ?_, ?_⟩
  · simp only [interval, Nat.pow_eq]
    rw [Nat.cast_mul, Nat.cast_sub less, gap]
    push_cast
    rw [scaled]
    ring
  · simp only [interval, Nat.pow_eq]
    push_cast
    rw [scaled]
    ring
  · simp only [interval, Nat.pow_eq]
    push_cast
    rw [scaled]
    ring

/-- What lies in the interval of a number is within half a unit of it; where the gap below is
shorter, within that; and only if its significand is even, at an end. This is the interval in terms
of rationals, which everything below is about. -/
theorem holds_iff (h : 0 < m) {y : ℚ} : (interval m e).Holds y ↔
    (m - gapBelow m e) * 2 ^ e ≤ y ∧ y ≤ (m + 1 / 2) * 2 ^ e ∧
      (y = (m - gapBelow m e) * 2 ^ e ∨ y = (m + 1 / 2) * 2 ^ e → Even m) := by
  obtain ⟨low, -, high⟩ := interval_bounds h e
  have closed : (interval m e).closed = decide (m % 2 = 0) := rfl
  rw [Interval.Holds, low, high, closed, Nat.even_iff]
  by_cases even : m % 2 = 0
  · simp [even]
  · simp only [even, decide_false, Bool.false_eq_true, if_false, imp_false, not_or]
    constructor
    · rintro ⟨below, above⟩
      exact ⟨below.le, above.le, below.ne', above.ne⟩
    · rintro ⟨below, above, other, other'⟩
      exact ⟨lt_of_le_of_ne below (Ne.symm other), lt_of_le_of_ne above other'⟩

theorem gapBelow_le (m : ℕ) (e : ℤ) : gapBelow m e ≤ 1 / 2 := by
  unfold gapBelow
  split <;> norm_num

/-- The interval of a positive number is well within the range of decimals that are looked at. -/
theorem range_of_holds (normal : Normal m e) (h : 0 < m) {y : ℚ} (holds : (interval m e).Holds y) :
    1 / 10 ^ 400 ≤ y ∧ y < 10 ^ 400 := by
  obtain ⟨low, high, -⟩ := (holds_iff h).1 holds
  have one : (1 : ℚ) ≤ m := by exact_mod_cast h
  have bits : (m : ℚ) + 1 ≤ 2 ^ precision := by exact_mod_cast normal.bits
  have gap := gapBelow_le m e
  have least : (2 : ℚ) ^ minExponent ≤ 2 ^ e := zpow_le_zpow_right₀ one_le_two normal.least
  have greatest : (2 : ℚ) ^ e ≤ 2 ^ maxExponent := zpow_le_zpow_right₀ one_le_two normal.greatest
  have positive : (0 : ℚ) < 2 ^ e := by positivity
  have low : 1 / 2 * 2 ^ minExponent ≤ y := by nlinarith
  have high : y < 2 ^ precision * 2 ^ maxExponent := by nlinarith
  have room : (2 : ℚ) ^ (1300 : ℕ) ≤ 10 ^ 400 := by
    calc (2 : ℚ) ^ (1300 : ℕ) = (2 ^ 13) ^ 100 := pow_mul 2 13 100
      _ ≤ (10 ^ 4) ^ 100 := pow_le_pow_left₀ (by norm_num) (by norm_num) _
      _ = 10 ^ 400 := (pow_mul 10 4 100).symm
  constructor
  · calc (1 : ℚ) / 10 ^ 400 ≤ 1 / 2 ^ (1300 : ℕ) := one_div_le_one_div_of_le (by positivity) room
      _ = 2 ^ (-((1300 : ℕ) : ℤ)) := by rw [zpow_neg, zpow_natCast, one_div]
      _ ≤ 2 ^ (minExponent - 1) := zpow_le_zpow_right₀ one_le_two (by decide)
      _ = 1 / 2 * 2 ^ minExponent := by rw [zpow_sub_one₀ two_ne_zero, mul_comm, one_div]
      _ ≤ y := low
  · calc y < 2 ^ precision * 2 ^ maxExponent := high
      _ = 2 ^ ((precision : ℤ) + maxExponent) := by rw [zpow_add₀ two_ne_zero, zpow_natCast]
      _ ≤ 2 ^ ((1300 : ℕ) : ℤ) := zpow_le_zpow_right₀ one_le_two (by decide)
      _ ≤ 10 ^ 400 := by rwa [zpow_natCast]

/-- In the unit of a number, what lies in its interval is rounded to its significand. -/
theorem roundQuotient_inUnits_of_holds (h : 0 < m) {num den : ℕ} (hd : 0 < den)
    (holds : (interval m e).Holds (num / den)) :
    roundQuotient (inUnits num den e).1 (inUnits num den e).2 = m := by
  obtain ⟨low, high, ends⟩ := (holds_iff h).1 holds
  have positive : (0 : ℚ) < 2 ^ e := by positivity
  have gap := gapBelow_le m e
  rw [roundQuotient_eq_iff (inUnits_pos hd num e), inUnits_div]
  generalize (num : ℚ) / den = y at low high ends ⊢
  rw [← le_div_iff₀ positive] at low
  rw [← div_le_iff₀ positive] at high
  refine ⟨abs_le.2 ⟨by linarith, by linarith⟩, fun half => ends ?_⟩
  rw [← div_eq_iff positive.ne', ← div_eq_iff positive.ne']
  rcases eq_or_eq_neg_of_abs_eq half with up | down
  · exact .inr (by linarith)
  · exact .inl (by linarith)

/-- What lies in the interval of a number and is too small for its unit belongs to a power of two,
and it is less than half of the next smaller unit away from that. -/
theorem power_of_holds (normal : Normal m e) (h : 0 < m) {y : ℚ} (holds : (interval m e).Holds y)
    (inner : e ≠ minExponent) (short : y < 2 ^ (precision - 1) * 2 ^ e) :
    m = 2 ^ (precision - 1) ∧ (2 ^ precision - 1 / 2) * 2 ^ (e - 1) ≤ y ∧
      y < 2 ^ precision * 2 ^ (e - 1) := by
  obtain ⟨low, -, -⟩ := (holds_iff h).1 holds
  have positive : (0 : ℚ) < 2 ^ e := by positivity
  have gap := gapBelow_le m e
  have power : m = 2 ^ (precision - 1) := by
    refine le_antisymm ?_ (normal.full.resolve_left inner)
    have : (m : ℚ) < 2 ^ (precision - 1) + 1 := by
      have := lt_of_mul_lt_mul_right (low.trans_lt short) positive.le
      linarith
    have : m < 2 ^ (precision - 1) + 1 := by exact_mod_cast this
    omega
  have next : minExponent < e := lt_of_le_of_ne normal.least (Ne.symm inner)
  have quarter : gapBelow m e = 1 / 4 := if_pos ⟨power, next⟩
  have halved : (2 : ℚ) ^ e = 2 * 2 ^ (e - 1) := by
    rw [zpow_sub_one₀ two_ne_zero]
    ring
  have size : (m : ℚ) = 2 ^ (precision - 1) := by exact_mod_cast power
  have double : (2 : ℚ) ^ precision = 2 ^ (precision - 1) * 2 := by norm_num [precision]
  refine ⟨power, le_of_eq_of_le ?_ low, ?_⟩
  · rw [quarter, halved, size, double]
    ring
  · rwa [halved, ← mul_assoc, ← double] at short

/-- **What lies in the interval of a number is rounded to it.** At the ends this is a tie, which
goes to an even significand. -/
theorem ofQuotient_eq_of_holds (normal : Normal m e) (h : 0 < m) {num den : ℕ} (hd : 0 < den)
    (holds : (interval m e).Holds (num / den)) (s : Bool) :
    ofQuotient s num den = .finite s m e := by
  obtain ⟨low, high, -⟩ := (holds_iff h).1 holds
  have positive : (0 : ℚ) < 2 ^ e := by positivity
  have one : (1 : ℚ) ≤ m := by exact_mod_cast h
  have bits : (m : ℚ) + 1 ≤ 2 ^ precision := by exact_mod_cast normal.bits
  have gap := gapBelow_le m e
  have hn : 0 < num := by
    have : (0 : ℚ) < num / den := lt_of_lt_of_le (by nlinarith) low
    exact Nat.pos_of_ne_zero fun zero => by simp [zero] at this
  have unit := isUnitOf_unitExponent hn hd
  have above : (num : ℚ) / den < 2 ^ precision * 2 ^ e := lt_of_le_of_lt high (by nlinarith)
  by_cases enough : e = minExponent ∨ (2 : ℚ) ^ (precision - 1) * 2 ^ e ≤ num / den
  · -- The rational is rounded in the unit of the number.
    have same := unit.unique ⟨normal.least, above, enough⟩
    have rounded := roundQuotient_inUnits_of_holds h hd holds
    simp only [ofQuotient, hn.ne', if_false, same, rounded, Nat.pow_eq, normal.bits.ne]
    exact if_neg (not_lt.2 normal.greatest)
  · -- It is rounded in the next smaller unit, and the rounding carries.
    obtain ⟨inner, short⟩ := not_or.1 enough
    obtain ⟨power, low, short⟩ := power_of_holds normal h holds inner (not_le.1 short)
    have positive' : (0 : ℚ) < 2 ^ (e - 1) := by positivity
    have next : minExponent < e := lt_of_le_of_ne normal.least (Ne.symm inner)
    have same : unitExponent num den = e - 1 := by
      refine unit.unique ⟨by omega, short, .inr (le_trans ?_ low)⟩
      refine mul_le_mul_of_nonneg_right ?_ positive'.le
      norm_num [precision]
    have rounded : roundQuotient (inUnits num den (e - 1)).1 (inUnits num den (e - 1)).2 =
        2 ^ precision := by
      rw [roundQuotient_eq_iff (inUnits_pos hd num _), inUnits_div]
      generalize (num : ℚ) / den = y at low short ⊢
      rw [← le_div_iff₀ positive'] at low
      rw [← div_lt_iff₀ positive'] at short
      push_cast
      exact ⟨abs_le.2 ⟨by linarith, by linarith⟩, fun _ => by decide⟩
    simp only [ofQuotient, hn.ne', if_false, same, rounded, Nat.pow_eq, if_true]
    rw [power, sub_add_cancel]
    exact if_neg (not_lt.2 normal.greatest)

/-! ### Decimal digits

Decimal digits with a point denote a rational, and the number of digits tells where the first of
them stands. -/

/-- The rational that decimal digits denote: the digits as a number, moved to their point. -/
def Digits.value (d : Digits) : ℚ := d.digits * 10 ^ (d.point - digitCount d.digits)

theorem digitCount_pos (n : ℕ) : 0 < digitCount n := Nat.length_toDigits_pos

theorem lt_pow_digitCount (n : ℕ) : n < 10 ^ digitCount n :=
  (digitCount_le_iff (digitCount_pos n)).1 le_rfl

theorem pow_digitCount_le {n : ℕ} (h : 0 < n) : 10 ^ (digitCount n - 1) ≤ n := by
  by_contra less
  have counted := digitCount_pos n
  obtain one | more : digitCount n = 1 ∨ 0 < digitCount n - 1 := by omega
  · rw [one] at less
    exact less h
  · have := (digitCount_le_iff more).2 (not_le.1 less)
    omega

/-- The exponent of a quotient is that of its first digit. -/
theorem pow_decimalPoint_le {num den : ℕ} (hn : 0 < num) (hd : 0 < den) :
    (10 : ℚ) ^ (decimalPoint num den - 1) ≤ num / den := by
  have hden : (0 : ℚ) < den := by exact_mod_cast hd
  rw [le_div_iff₀ hden]
  unfold decimalPoint
  split
  · next large =>
    have whole : 0 < num / den := Nat.div_pos large hd
    have counted := digitCount_pos (num / den)
    have least : 10 ^ (digitCount (num / den) - 1) * den ≤ num :=
      (Nat.mul_le_mul_right den (pow_digitCount_le whole)).trans (Nat.div_mul_le_self num den)
    have exponent : ((digitCount (num / den) : ℕ) : ℤ) - 1 = (digitCount (num / den) - 1 : ℕ) := by
      omega
    rw [exponent, zpow_natCast]
    exact_mod_cast least
  · next small =>
    have whole : 0 < den / num := Nat.div_pos (not_le.1 small).le hn
    have counted := digitCount_pos (den / num)
    generalize hc : digitCount (den / num) = c at *
    dsimp only
    split
    · next least =>
      have exponent : (2 - (c : ℤ)) - 1 = -((c - 1 : ℕ) : ℤ) := by omega
      rw [exponent, zpow_neg, zpow_natCast, inv_mul_le_iff₀ (by positivity), mul_comm]
      exact_mod_cast least
    · have most : den < 10 ^ c * num :=
        (Nat.div_lt_iff_lt_mul hn).1 (hc ▸ (lt_pow_digitCount _))
      have exponent : (1 - (c : ℤ)) - 1 = -(c : ℤ) := by omega
      rw [exponent, zpow_neg, zpow_natCast, inv_mul_le_iff₀ (by positivity)]
      exact_mod_cast most.le

/-! ### Candidates

For a given number of digits only the two neighbours of the number can lie in its interval. Either
one of them does, or the interval lies strictly between them, and then it is shorter than a step of
the last digit. -/

theorem ten_zpow_eq (k : ℤ) : (10 : ℚ) ^ k = 10 ^ k.toNat / 10 ^ (-k).toNat := by
  obtain ⟨n, rfl | rfl⟩ := k.eq_nat_or_neg <;> simp

section Candidate

variable {i : Interval} {point : ℤ} {n : ℕ}

theorem unit_eq (point : ℤ) (n : ℕ) : (10 : ℚ) ^ (point - n) =
    10 ^ (-((n : ℤ) - point)).toNat / 10 ^ ((n : ℤ) - point).toNat := by
  rw [← neg_sub, ten_zpow_eq, neg_neg]

/-- Digits read back if the rational that they denote lies in the interval. -/
theorem reads_iff (positive : 0 < i.den) (point : ℤ) (n d : ℕ) :
    i.contains (d * Nat.pow 10 (-((n : ℤ) - point)).toNat) (Nat.pow 10 ((n : ℤ) - point).toNat) =
      true ↔ i.Holds (d * 10 ^ (point - n)) := by
  refine (Interval.contains_iff positive (Nat.pow_pos (by decide))).trans (iff_of_eq ?_)
  have pow (k : ℕ) : ((Nat.pow 10 k : ℕ) : ℚ) = 10 ^ k := Nat.cast_pow 10 k
  rw [unit_eq, Nat.cast_mul, pow, Nat.cast_pow, Nat.cast_ofNat, mul_div_assoc]

/-- Of the two neighbours of a number with some digits one is a candidate, and it reads back, unless
neither of them does. -/
theorem candidate?_cases (positive : 0 < i.den) (point : ℤ) (n : ℕ) :
    (∃ d, candidate? i point n = some d ∧ i.Holds (d * 10 ^ (point - n))) ∨
    ∃ low : ℕ, candidate? i point n = none ∧ low * 10 ^ (point - n) ≤ (i.value : ℚ) / i.den ∧
      (i.value : ℚ) / i.den < (low + 1) * 10 ^ (point - n) ∧
      ¬i.Holds (low * 10 ^ (point - n)) ∧ ¬i.Holds ((low + 1) * 10 ^ (point - n)) := by
  obtain ⟨num, hnum⟩ : ∃ num, num = i.value * Nat.pow 10 ((n : ℤ) - point).toNat := ⟨_, rfl⟩
  obtain ⟨den, hden⟩ : ∃ den, den = i.den * Nat.pow 10 (-((n : ℤ) - point)).toNat := ⟨_, rfl⟩
  have reads_low := reads_iff positive point n (num / den)
  have reads_next := reads_iff positive point n (num / den + 1)
  have either : roundQuotient num den = num / den ∨ roundQuotient num den = num / den + 1 := by
    unfold roundQuotient
    split_ifs <;> omega
  simp only [candidate?, ← hnum, ← hden]
  push_cast at reads_next
  cases low : i.contains (num / den * Nat.pow 10 (-((n : ℤ) - point)).toNat)
      (Nat.pow 10 ((n : ℤ) - point).toNat) <;>
    cases next : i.contains ((num / den + 1) * Nat.pow 10 (-((n : ℤ) - point)).toNat)
      (Nat.pow 10 ((n : ℤ) - point).toNat) <;>
    rw [low] at reads_low <;> rw [next] at reads_next
  · have den_pos : 0 < den := by
      rw [hden]
      exact Nat.mul_pos positive (Nat.pow_pos (by decide))
    have size : (i.value : ℚ) / i.den = num / den * 10 ^ (point - n) := by
      have hi : (i.den : ℚ) ≠ 0 := by exact_mod_cast positive.ne'
      rw [hnum, hden, unit_eq, Nat.pow_eq, Nat.pow_eq]
      push_cast
      field_simp
    have unit_pos : (0 : ℚ) < 10 ^ (point - n) := by positivity
    have den_pos' : (0 : ℚ) < den := by exact_mod_cast den_pos
    refine .inr ⟨num / den, rfl, ?_, ?_, by simpa using reads_low, by simpa using reads_next⟩
    · rw [size]
      exact mul_le_mul_of_nonneg_right Nat.cast_div_le unit_pos.le
    · rw [size]
      refine mul_lt_mul_of_pos_right ?_ unit_pos
      rw [div_lt_iff₀ den_pos', mul_comm]
      exact_mod_cast Nat.lt_mul_div_succ num den_pos
  · exact .inl ⟨num / den + 1, rfl, by push_cast; exact reads_next.1 rfl⟩
  · exact .inl ⟨num / den, rfl, reads_low.1 rfl⟩
  · refine .inl ⟨roundQuotient num den, rfl, ?_⟩
    obtain rounded | rounded := either
    · rw [rounded]
      exact reads_low.1 rfl
    · rw [rounded]
      push_cast
      exact reads_next.1 rfl

end Candidate

/-- What lies strictly between the ends of the interval of a number lies in it. -/
theorem holds_of_between (h : 0 < m) {y : ℚ} (low : (m - gapBelow m e) * 2 ^ e < y)
    (high : y < (m + 1 / 2) * 2 ^ e) : (interval m e).Holds y :=
  (holds_iff h).2 ⟨low.le, high.le, fun ends => ends.elim (absurd · low.ne') (absurd · high.ne)⟩

theorem gapBelow_pos (m : ℕ) (e : ℤ) : 0 < gapBelow m e := by
  unfold gapBelow
  split <;> norm_num

/-- A number lies in its own interval. -/
theorem holds_self (h : 0 < m) (e : ℤ) : (interval m e).Holds (m * 2 ^ e) := by
  have positive : (0 : ℚ) < 2 ^ e := by positivity
  have gap := gapBelow_pos m e
  exact holds_of_between h (by nlinarith) (by nlinarith)

/-- **Seventeen digits suffice.** With so many, a step of the last digit is shorter than the
interval, so one of the two neighbours lies in it. -/
theorem exists_candidate (normal : Normal m e) (h : 0 < m) :
    ∃ d, candidate? (interval m e) (decimalPoint (interval m e).value (interval m e).den) 17 =
      some d := by
  obtain ⟨-, value, -⟩ := interval_bounds h e
  have positive : (0 : ℚ) < 2 ^ e := by positivity
  have one : (1 : ℚ) ≤ m := by exact_mod_cast h
  have value_pos : 0 < (interval m e).value := by
    refine Nat.pos_of_ne_zero fun zero => ?_
    rw [zero, Nat.cast_zero, zero_div] at value
    nlinarith
  have first := pow_decimalPoint_le value_pos (interval_den_pos m e)
  generalize decimalPoint (interval m e).value (interval m e).den = point at *
  obtain ⟨d, found, -⟩ | ⟨low, -, below, above, not_low, not_next⟩ :=
    candidate?_cases (interval_den_pos m e) point 17
  · exact ⟨d, found⟩
  · -- A step from below the interval to above it would be too long.
    rw [value] at first below above
    have step : (10 : ℚ) ^ (point - 17) * 10 ^ 16 ≤ m * 2 ^ e := by
      refine le_of_eq_of_le ?_ first
      rw [← zpow_natCast, ← zpow_add₀ (by norm_num)]
      congr 1
      push_cast
      ring
    push_cast at *
    generalize (10 : ℚ) ^ (point - 17) = unit at *
    have under : low * unit ≤ (m - gapBelow m e) * 2 ^ e := by
      by_contra inside
      exact not_low (holds_of_between h (not_le.1 inside) (by nlinarith))
    have above : (m + 1 / 2) * 2 ^ e ≤ (low + 1) * unit := by
      by_contra inside
      have gap := gapBelow_pos m e
      exact not_next (holds_of_between h (by nlinarith) (not_le.1 inside))
    have long : (gapBelow m e + 1 / 2) * 2 ^ e ≤ unit := by linarith
    have few : (gapBelow m e + 1 / 2) * 10 ^ 16 ≤ m := by
      refine le_of_mul_le_mul_right ?_ positive
      linarith
    have bits : (m : ℚ) < 2 ^ precision := by exact_mod_cast normal.bits
    unfold gapBelow at few
    split at few
    · next power =>
      rw [power.1] at few
      norm_num [precision] at few
    · rw [precision] at bits
      norm_num at few bits
      linarith

/-! ### The search

The search starts with few digits and tries one more each time. It ends before its fuel does, since
seventeen digits are a candidate. -/

/-- The digits that are found read back. -/
theorem searchDigits_holds {i : Interval} (positive : 0 < i.den) (point : ℤ) (fuel : ℕ) {n : ℕ}
    (last : ∃ d, candidate? i point (n + fuel) = some d) :
    i.Holds ((searchDigits i point fuel n).digits * 10 ^ (searchDigits i point fuel n).point) := by
  have holds {n d : ℕ} (found : candidate? i point n = some d) :
      i.Holds (d * 10 ^ (point - n)) := by
    obtain ⟨d', found', holds⟩ | ⟨low, none_found, -⟩ := candidate?_cases positive point n
    · rwa [Option.some.inj (found.symm.trans found')]
    · nomatch found.symm.trans none_found
  induction fuel generalizing n with
  | zero =>
    obtain ⟨d, found⟩ := last
    rw [Nat.add_zero] at found
    have exponent : point + (0 : ℕ) - n = point - n := by simp
    simp only [searchDigits, found, Option.getD_some]
    rw [exponent]
    exact holds found
  | succ fuel ih =>
    rw [searchDigits]
    cases found : candidate? i point n with
    | none =>
      refine ih ?_
      rwa [Nat.add_right_comm]
    | some d => exact holds found

/-- Dropping zeros at the end changes neither the value nor whether there is a digit. Zeros are
dropped as long as there are any. -/
theorem stripZeros_spec (fuel d : ℕ) (k : ℤ) :
    ((stripZeros fuel d k).1 : ℚ) * 10 ^ (stripZeros fuel d k).2 = d * 10 ^ k ∧
      (0 < d → 0 < (stripZeros fuel d k).1) := by
  induction fuel generalizing d k with
  | zero => exact ⟨rfl, id⟩
  | succ fuel ih =>
    rw [stripZeros]
    split
    · next zero_last =>
      obtain ⟨value, positive⟩ := ih (d / 10) (k + 1)
      have tens : d = d / 10 * 10 := by omega
      refine ⟨?_, fun _ => positive (by omega)⟩
      have tens : (d : ℚ) = (d / 10 : ℕ) * 10 := by exact_mod_cast tens
      rw [value, tens, zpow_add_one₀ (by norm_num)]
      ring
    · exact ⟨rfl, id⟩

/-- **The fewest digits of a number lie in its interval.** With seventeen digits there is always a
candidate, so the search does not come to its end without one. -/
theorem shortest_holds (normal : Normal m e) (h : 0 < m) :
    0 < (shortest m e).digits ∧ (interval m e).Holds (shortest m e).value := by
  have found := searchDigits_holds (interval_den_pos m e)
    (decimalPoint (interval m e).value (interval m e).den) 16 (n := 1)
    (exists_candidate normal h)
  have parts : (shortest m e).value = (shortest m e).digits *
      10 ^ ((shortest m e).point - digitCount (shortest m e).digits) := rfl
  have exponent (k : ℤ) (n : ℕ) : k + n - n = k := by omega
  rw [parts]
  unfold shortest
  dsimp only
  generalize searchDigits (interval m e) (decimalPoint (interval m e).value (interval m e).den) 16 1
    = d at found ⊢
  obtain ⟨value, positive⟩ := stripZeros_spec 20 d.digits d.point
  rw [exponent, value]
  refine ⟨positive (Nat.pos_of_ne_zero fun zero => ?_), found⟩
  -- Zero is not in the interval of a positive number.
  have one : (1 : ℚ) ≤ m := by exact_mod_cast h
  have gap := gapBelow_le m e
  have unit : (0 : ℚ) < 2 ^ e := by positivity
  rw [zero, Nat.cast_zero, zero_mul] at found
  have low := ((holds_iff h).1 found).1
  nlinarith

end Double

/-! ### Written numbers

The digits are laid out with a point or with an exponent, and either form is read as the decimal
with these digits. The decimal lies in the interval of the number, so it is converted to it. -/

namespace Numeral

variable {negative : Bool}

/-- What digits with their point are read as. -/
theorem readUnsigned_positional (n : ℕ) (point : ℤ) :
    ∃ x, Decimal.readUnsigned negative (positional (digitChars n) point) = some x ∧
      x.negative = negative ∧
      (x.coefficient : ℚ) * 10 ^ x.exponent = n * 10 ^ (point - digitCount n) := by
  have digits := allDigits_digitChars n
  have zero : AllDigits ['0'] := allDigits_replicate_zero 1
  have count : (digitChars n).length = digitCount n := rfl
  unfold positional
  split
  · next small =>
    have zeros := allDigits_replicate_zero (-point).toNat
    have read := Decimal.readUnsigned_places negative zero (by simp)
      (zeros.append digits)
    refine ⟨_, read, rfl, ?_⟩
    have exponent : -((List.replicate (-point).toNat '0' ++ digitChars n).length : ℤ) =
        point - digitCount n := by
      rw [List.length_append, List.length_replicate, count]
      omega
    dsimp only
    rw [exponent, show ['0'] = List.replicate 1 '0' from rfl, natOfDigits_zeros_append,
      natOfDigits_zeros_append, natOfDigits_digitChars]
  split
  · next large =>
    have whole := digits.append (allDigits_replicate_zero (point.toNat - (digitChars n).length))
    refine ⟨_, Decimal.readUnsigned_places negative whole
      (List.append_ne_nil_of_left_ne_nil (digitChars_ne_nil n) _) zero, rfl, ?_⟩
    have exponent : point - digitCount n = (point.toNat - (digitChars n).length : ℕ) := by
      rw [count] at large ⊢
      omega
    dsimp only
    rw [exponent, show ['0'] = List.replicate 1 '0' from rfl, natOfDigits_append_zeros,
      natOfDigits_append_zeros, natOfDigits_digitChars, zpow_natCast]
    push_cast
    simp
  · next positive between =>
    have parts := List.take_append_drop point.toNat (digitChars n)
    have nonempty : (digitChars n).take point.toNat ≠ [] := by
      rw [ne_eq, List.take_eq_nil_iff, not_or]
      exact ⟨by omega, digitChars_ne_nil n⟩
    refine ⟨_, Decimal.readUnsigned_places negative
      (fun c hc => digits c (List.mem_of_mem_take hc)) nonempty
      fun c hc => digits c (List.mem_of_mem_drop hc), rfl, ?_⟩
    have exponent : -(((digitChars n).drop point.toNat).length : ℤ) = point - digitCount n := by
      rw [List.length_drop, count]
      omega
    dsimp only
    rw [exponent, parts, natOfDigits_digitChars]

/-- What digits with an exponent are read as. -/
theorem readUnsigned_scientific (layout : Layout) (n : ℕ) (point : ℤ) :
    ∃ x, Decimal.readUnsigned negative (scientific layout (digitChars n) point) = some x ∧
      x.negative = negative ∧
      (x.coefficient : ℚ) * 10 ^ x.exponent = n * 10 ^ (point - digitCount n) := by
  have digits := allDigits_digitChars n
  have value := natOfDigits_digitChars n
  have count : digitCount n = (digitChars n).length := rfl
  have exponent := Decimal.readExponent_signed (point - 1)
    (layout.exponentDigits - (digitChars (point - 1).natAbs).length)
  rw [count]
  obtain ⟨d, rest, split⟩ := List.exists_cons_of_ne_nil (digitChars_ne_nil n)
  rw [split] at digits value ⊢
  obtain ⟨first, others⟩ := List.forall_mem_cons.1 digits
  have first : AllDigits [d] := List.forall_mem_singleton.2 first
  cases rest with
  | nil =>
    have read := Decimal.readUnsigned_exponent negative first (by simp)
      (show AllDigits [] from nofun) (.inr ⟨rfl, rfl⟩) exponent
    refine ⟨_, read, rfl, ?_⟩
    dsimp only
    rw [List.append_nil, value]
    simp
  | cons d' rest =>
    have read := Decimal.readUnsigned_exponent negative first (by simp) others
      (.inl rfl) exponent
    refine ⟨_, read, rfl, ?_⟩
    have places : point - 1 - ((d' :: rest).length : ℤ) = point - (d :: d' :: rest).length := by
      simp
      ring
    dsimp only
    rw [List.singleton_append, value, places]

/-- What is written of digits denotes them. -/
theorem readUnsigned_write (negative : Bool) (layout : Layout) (d : Double.Digits) :
    ∃ x, Decimal.readUnsigned negative (write layout d) = some x ∧ x.negative = negative ∧
      (x.coefficient : ℚ) * 10 ^ x.exponent = d.value := by
  rw [write]
  split
  · exact readUnsigned_positional d.digits d.point
  · exact readUnsigned_scientific layout d.digits d.point

/-- What is written of digits begins with a digit. -/
theorem exists_write_eq_cons (layout : Layout) (d : Double.Digits) :
    ∃ c rest, write layout d = c :: rest ∧ c.isDigit = true := by
  obtain ⟨c, rest, first⟩ := List.exists_cons_of_ne_nil (digitChars_ne_nil d.digits)
  have digit : c.isDigit = true := allDigits_digitChars d.digits c (first ▸ List.mem_cons_self)
  rw [write, first]
  split
  · unfold positional
    split
    · exact ⟨_, _, rfl, rfl⟩
    split
    · exact ⟨_, _, rfl, digit⟩
    · next positive _ =>
      obtain ⟨k, hk⟩ : ∃ k, d.point.toNat = k + 1 := ⟨d.point.toNat - 1, by omega⟩
      rw [hk]
      exact ⟨_, _, rfl, digit⟩
  · cases rest <;> exact ⟨_, _, rfl, digit⟩

end Numeral

namespace Double

variable {m : ℕ} {e : ℤ}

/-- A decimal in the interval of a number is converted to it. -/
theorem toDouble_eq_of_holds (normal : Normal m e) (h : 0 < m) {x : Decimal}
    (holds : (interval m e).Holds (x.coefficient * 10 ^ x.exponent)) :
    x.toDouble = .finite x.negative m e := by
  obtain ⟨tiny, huge⟩ := range_of_holds normal h holds
  have nonzero : x.coefficient ≠ 0 := by
    intro zero
    rw [zero, Nat.cast_zero, zero_mul] at tiny
    exact absurd tiny (not_le.2 (by positivity))
  have unit : (0 : ℚ) < 10 ^ x.exponent := by positivity
  have counted := digitCount_pos x.coefficient
  have most : (x.coefficient : ℚ) < 10 ^ digitCount x.coefficient := by
    exact_mod_cast lt_pow_digitCount _
  have least : (10 : ℚ) ^ (digitCount x.coefficient - 1) ≤ x.coefficient := by
    exact_mod_cast pow_digitCount_le (Nat.pos_of_ne_zero nonzero)
  have not_large : ¬400 < digitCount x.coefficient + x.exponent := by
    intro large
    have : (10 : ℚ) ^ (400 : ℤ) ≤ 10 ^ (digitCount x.coefficient - 1) * 10 ^ x.exponent := by
      rw [← zpow_natCast, ← zpow_add₀ (by norm_num)]
      exact zpow_le_zpow_right₀ (by norm_num) (by omega)
    have := this.trans (mul_le_mul_of_nonneg_right least unit.le)
    exact absurd huge (not_lt.2 (by exact_mod_cast this))
  have not_small : ¬digitCount x.coefficient + x.exponent < -400 := by
    intro small
    have : (10 : ℚ) ^ digitCount x.coefficient * 10 ^ x.exponent ≤ 10 ^ (-400 : ℤ) := by
      rw [← zpow_natCast, ← zpow_add₀ (by norm_num)]
      exact zpow_le_zpow_right₀ (by norm_num) (by omega)
    have := (mul_lt_mul_of_pos_right most unit).trans_le this
    rw [zpow_neg, ← one_div] at this
    exact absurd tiny (not_le.2 (by exact_mod_cast this))
  rw [Decimal.toDouble, ofDecimal, if_neg nonzero, if_neg not_large, if_neg not_small]
  have positive : 0 < Nat.pow 10 (-x.exponent).toNat := Nat.pow_pos (by decide)
  refine ofQuotient_eq_of_holds normal h positive ?_ _
  have value : ((x.coefficient * Nat.pow 10 x.exponent.toNat : ℕ) : ℚ) /
      (Nat.pow 10 (-x.exponent).toNat : ℕ) = x.coefficient * 10 ^ x.exponent := by
    rw [ten_zpow_eq, Nat.pow_eq, Nat.pow_eq]
    push_cast
    rw [mul_div_assoc]
  rwa [value]

/-- **A written number reads back.** The digits lie in the interval of the number, and everything in
there is rounded to it. -/
theorem toText_reads_back {x : Double} (normal : x.IsNormal) (finite : x.isFinite = true) :
    ∃ d, Decimal.ofText? x.toText = some d ∧ d.toDouble = x := by
  cases x with
  | finite s m e =>
    have normal : Normal m e := normal
    obtain rfl | h := Nat.eq_zero_or_pos m
    · obtain rfl : e = minExponent := normal.full.resolve_right (by decide)
      cases s
      · exact ⟨⟨false, 0, -1⟩, by decide +kernel, rfl⟩
      · exact ⟨⟨true, 0, -1⟩, by decide +kernel, rfl⟩
    · obtain ⟨d, read, negative, value⟩ :=
        Numeral.readUnsigned_write s Numeral.plain (shortest m e)
      have written : toText (.finite s m e) = String.ofList
          ((if s then ['-'] else []) ++ Numeral.write Numeral.plain (shortest m e)) := by
        simp only [toText, if_neg h.ne']
        cases s
        · rfl
        · rw [if_pos rfl, if_pos rfl, String.ofList_append]
      refine ⟨d, ?_, ?_⟩
      · rw [written, Decimal.ofText?_signed (Numeral.exists_write_eq_cons _ _), read]
      · rw [toDouble_eq_of_holds normal h (value ▸ (shortest_holds normal h).2), negative]
  | nan | infinite => exact absurd finite Bool.false_ne_true

end Double

end PropertyMarket
