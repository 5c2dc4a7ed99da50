import PropertyMarket.Proofs.Overflow
import PropertyMarket.Proofs.Percent

/-!
# Changes in percent of any integers

Integers have no bound, but binary64 has: the quotient of a change by its base is refused if it is
too large. Where it is not, rounding it to hundredths does not leave the range either, since a
number whose unit is a whole one has nothing left to round, and any other is far below the bound. So
a change in percent is refused or a number, and it is known which: the nearest one to the hundredths
of the nearest one to the exact change.

## Main definitions

* `hundredths` — a rational as binary64 has it, rounded to hundredths there

## Main results

* `Number.isFinite_divInt_iff` — which quotients of integers are in range
* `Number.value_divInt` — what they denote
* `Number.isFinite_roundPlaces_divInt`, `Number.value_roundPlaces_divInt` — the same when they are
  rounded to places
* `hundredths_eq` — it is the exact change, rounded to hundredths, if it is not halfway

## Implementation notes

Both directions of being in range come from the point of overflow. A quotient at or above it is
refused; one below it is a number of at most 53 bits, and rounding such a number to places can only
make it larger where its unit is less than one, that is, far below the bound.

The number is described as a rational, `hundredths`, which takes two roundings to binary64 and one
to places. It is not simplified further, because the two roundings to binary64 do not cancel out in
general.
-/

namespace PropertyMarket

/-- Equal quotients are rounded to the same whole number. -/
theorem roundQuotient_congr {num den num' den' : ℕ} (hd : 0 < den) (hd' : 0 < den')
    (same : (num : ℚ) / den = num' / den') : roundQuotient num den = roundQuotient num' den' := by
  have hden : (den : ℚ) ≠ 0 := by exact_mod_cast hd.ne'
  have hden' : (den' : ℚ) ≠ 0 := by exact_mod_cast hd'.ne'
  have cross : den' * num = den * num' := by
    rw [div_eq_div_iff hden hden'] at same
    have : (den' : ℚ) * num = den * num' := by linarith
    exact_mod_cast this
  rw [← roundQuotient_mul_left hd' num den, cross, Nat.mul_comm den' den,
    roundQuotient_mul_left hd]

namespace Double

/-! ### Rounding to places

A number whose unit is a whole one is left as it is by any number of places. All others are below `2
^ 53`, and rounding them moves them by one at most. -/

/-- A number in range is rounded to places within the range. -/
theorem isFinite_roundPlaces_of_lt {m : ℕ} {e : ℤ} (s : Bool) (places : ℕ)
    (hm : m < 2 ^ precision) (he : e ≤ maxExponent) :
    ((finite s m e).roundPlaces places).isFinite = true := by
  have hm' : (m : ℚ) + 1 ≤ 2 ^ precision := by exact_mod_cast hm
  obtain whole | fraction := le_or_gt 0 e
  · -- A whole number is rounded to itself.
    have pos : 0 < Nat.pow 10 places := Nat.pow_pos (by decide)
    have itself : (finite s m e).roundPlaces places =
        ofQuotient s (m * 2 ^ e.toNat * Nat.pow 10 places) (Nat.pow 10 places) := by
      obtain ⟨n, rfl⟩ := Int.eq_ofNat_of_zero_le whole
      have exact := roundQuotient_exact Nat.one_pos (m * Nat.pow 2 n * Nat.pow 10 places)
      rw [Nat.mul_one] at exact
      simp only [roundPlaces, Int.toNat_natCast, Int.toNat_neg_natCast]
      rw [show Nat.pow 2 0 = 1 from rfl, exact, Nat.pow_eq]
    rw [itself]
    obtain rfl | positive := Nat.eq_zero_or_pos m
    · simp [ofQuotient, zeroOf, isFinite]
    · have size : ((m * 2 ^ e.toNat * Nat.pow 10 places : ℕ) : ℚ) / (Nat.pow 10 places : ℕ) =
          m * 2 ^ e := by
        have unit : ((Nat.pow 10 places : ℕ) : ℚ) ≠ 0 := by exact_mod_cast pos.ne'
        rw [Nat.cast_mul, mul_div_assoc, div_self unit, mul_one, Nat.cast_mul, Nat.cast_pow,
          two_zpow_eq, Int.toNat_eq_zero.2 (neg_nonpos.2 whole), pow_zero, div_one, Nat.cast_ofNat]
      rw [isFinite_ofQuotient_iff s (by positivity) pos, size, overflow_eq]
      calc (m : ℚ) * 2 ^ e ≤ m * 2 ^ maxExponent := by
            gcongr
            exact one_le_two
        _ < (2 ^ precision - 1 / 2) * 2 ^ maxExponent := by
            gcongr
            linarith
  · refine isFinite_roundPlaces s places ?_
    calc (m : ℚ) * 2 ^ e + 1 ≤ m * 1 + 1 := by
          gcongr
          exact zpow_le_one_of_nonpos₀ one_le_two fraction.le
      _ ≤ 2 ^ precision := by linarith
      _ < 2 ^ (1000 : ℤ) := by
          rw [← zpow_natCast]
          exact zpow_lt_zpow_right₀ one_lt_two (by decide)

theorem abs_value_finite (s : Bool) (m : ℕ) (e : ℤ) : |value (.finite s m e)| = m * 2 ^ e := by
  have size : (0 : ℚ) ≤ m * 2 ^ e := by positivity
  rw [value_finite, abs_mul, abs_of_nonneg size]
  cases s <;> simp

/-- What is rounded to places denotes the rounding of what it denotes, up to the nearest number. -/
theorem value_roundPlaces (s : Bool) (m : ℕ) (e : ℤ) (places : ℕ) :
    ((finite s m e).roundPlaces places).value =
      (nearest (roundRat places (finite s m e).value)).value := by
  have size := abs_mul_pow_eq places (finite s m e).value
  have pow : ((Nat.pow 10 places : ℕ) : ℚ) = 10 ^ places := Nat.cast_pow 10 places
  have den_pos : 0 < Nat.pow 2 (-e).toNat := Nat.pow_pos (by decide)
  have unit_pos : 0 < Nat.pow 10 places := Nat.pow_pos (by decide)
  have units : ((m * Nat.pow 2 e.toNat * Nat.pow 10 places : ℕ) : ℚ) / (Nat.pow 2 (-e).toNat : ℕ) =
      m * 2 ^ e * 10 ^ places := by
    rw [Nat.cast_mul, pow, mul_div_right_comm, units_eq]
  rw [abs_value_finite, ← units] at size
  have rounded := roundQuotient_congr den_pos (finite s m e).value.den_pos size
  simp only [roundRat]
  rw [nearest_mkRat _ unit_pos, value_ofQuotient_signed, ← rounded, roundPlaces]
  obtain rfl | positive := Nat.eq_zero_or_pos m
  · have zero : roundQuotient (0 * Nat.pow 2 e.toNat * Nat.pow 10 places)
        (Nat.pow 2 (-e).toNat) = 0 := by
      rw [Nat.zero_mul, Nat.zero_mul]
      simp [roundQuotient]
    simp only [zero, value_ofQuotient_zero]
  · have sign : decide ((finite s m e).value < 0) = s := by
      have above : (0 : ℚ) < m * 2 ^ e := by positivity
      rw [value_finite]
      cases s with
      | false => simpa using above.le
      | true => simpa using above
    rw [sign]

end Double

/-! ### Quotients of integers

Integers are divided as the quotient of their absolute values, with a sign of its own. As long as
only the value matters, this is the nearest number to the exact quotient. -/

namespace Number

variable {a b : ℤ}

theorem abs_div_eq (a b : ℤ) : |(a : ℚ) / b| = (a.natAbs : ℚ) / b.natAbs := by
  rw [abs_div, Nat.cast_natAbs, Nat.cast_natAbs, Int.cast_abs, Int.cast_abs]

/-- The quotient of two integers is in range exactly if it does not overflow. -/
theorem isFinite_divInt_iff (hb : b ≠ 0) :
    (divInt a b).isFinite = true ↔ |(a : ℚ) / b| < Double.overflow := by
  obtain rfl | ha := eq_or_ne a 0
  · refine iff_of_true rfl ?_
    rw [Int.cast_zero, zero_div, abs_zero]
    exact_mod_cast Double.overflow_pos
  · rw [divInt, Double.isFinite_ofQuotient_iff _ (Int.natAbs_pos.2 ha) (Int.natAbs_pos.2 hb),
      abs_div_eq]

/-- The quotient of two integers denotes what the nearest number to it denotes; only a zero may
differ in its sign. -/
theorem value_divInt (hb : b ≠ 0) :
    (divInt a b).value = (Double.nearest ((a : ℚ) / b)).value := by
  have quotient : (a : ℚ) / b = mkRat (if b < 0 then -a else a) b.natAbs := by
    rw [Rat.mkRat_eq_div, Nat.cast_natAbs, Int.cast_abs]
    split
    · next negative =>
      rw [abs_of_neg (Int.cast_lt_zero.2 negative), Int.cast_neg, neg_div_neg_eq]
    · next positive =>
      rw [abs_of_nonneg (Int.cast_nonneg (not_lt.1 positive))]
  have size : (if b < 0 then -a else a).natAbs = a.natAbs := by
    split <;> omega
  rw [quotient, Double.nearest_mkRat _ (Int.natAbs_pos.2 hb), size, divInt]
  obtain rfl | ha := eq_or_ne a 0
  · exact (Double.value_ofQuotient_zero _ _).trans (Double.value_ofQuotient_zero _ _).symm
  · have sign : (decide (a < 0) != decide (b < 0)) = decide ((if b < 0 then -a else a) < 0) := by
      rw [Bool.eq_iff_iff, decide_eq_true_iff, bne_iff_ne, ne_eq, decide_eq_decide]
      split <;> omega
    rw [sign]

/-- A quotient of integers in range is rounded to places within the range. -/
theorem isFinite_roundPlaces_divInt (places : ℕ) (hb : b ≠ 0)
    (finite : (divInt a b).isFinite = true) :
    ((divInt a b).roundPlaces places).isFinite = true := by
  cases rounded : divInt a b with
  | nan => rw [rounded] at finite; nomatch finite
  | infinite s => rw [rounded] at finite; nomatch finite
  | finite s m e =>
    obtain ⟨hm, he⟩ := Double.bounds_of_ofQuotient_eq (Int.natAbs_pos.2 hb) rounded
    exact Double.isFinite_roundPlaces_of_lt s places hm he

theorem value_roundPlaces_divInt (places : ℕ) (hb : b ≠ 0)
    (finite : (divInt a b).isFinite = true) :
    ((divInt a b).roundPlaces places).value =
      (Double.nearest (roundRat places (Double.nearest ((a : ℚ) / b)).value)).value := by
  rw [← value_divInt hb]
  cases rounded : divInt a b with
  | nan => rw [rounded] at finite; nomatch finite
  | infinite s => rw [rounded] at finite; nomatch finite
  | finite s m e => exact Double.value_roundPlaces s m e places

end Number

/-! ### Changes

The change in percent of two integers, in the terms of the first section: what it denotes if it is
in range, and when it is. -/

/-- A rational as binary64 has it, rounded to hundredths there: both roundings, that to binary64
before and after, are part of it. -/
def hundredths (x : ℚ) : ℚ := (Double.nearest (roundRat 2 (Double.nearest x).value)).value

section Changes

variable {current base : ℤ}

theorem percentOf_eq_div (current base : ℤ) :
    percentOf current base = ((100 * (current - base) : ℤ) : ℚ) / base := by
  rw [percentOf]
  push_cast
  rfl

/-- The exact change, rounded to hundredths, is found of rows at hand if it is not halfway. Binary64
is then close enough to the exact change not to be rounded to another hundredth. -/
theorem hundredths_eq (hb : base ≠ 0) (moderate : |base| ≤ 2 ^ 900)
    (apart : ¬IsHalfway 2 (percentOf current base))
    (small : 10000 * |current - base| < 2 ^ 52) :
    hundredths (percentOf current base) =
      (Double.nearest (roundRat 2 (percentOf current base))).value := by
  have same := storedPercent_eq_computedPercent hb moderate apart small
  have difference : |current - base| ≤ 2 ^ 901 := by
    have : |current - base| ≤ 2 ^ 52 := by omega
    exact this.trans (pow_le_pow_right₀ one_le_two (by decide))
  rw [storedPercent, (roundAway_eq_roundRat_iff 2 _).2 (mt IsHalfwayFromEven.isHalfway apart),
    computedPercent,
    Number.value_roundPlaces_divInt 2 hb (isFinite_computed hb moderate difference).1,
    ← percentOf_eq_div] at same
  exact same.symm

end Changes

end PropertyMarket
