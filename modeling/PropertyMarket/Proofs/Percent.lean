import PropertyMarket.Proofs.Nearest

/-!
# Changes in percent

A change in percent is rounded to two places. Of rows at hand the quotient is first rounded to
binary64, and the result then to the even one of two neighbours; the store rounds the exact quotient
away from zero. As long as the change is not halfway between two neighbours, and the difference not
so great that binary64 cannot tell it from such a change, both give the same.

## Main definitions

* `percentOf` — a change in percent, exactly
* `storedPercent`, `computedPercent` — the number that the store gives, and that of rows at hand

## Main results

* `storedPercent_eq_computedPercent` — they are the same unless the change is halfway

## Implementation notes

What is computed of rows at hand is off from the exact change by a relative error of `2 ^ -53`. A
change that is not halfway between two hundredths is some distance away from every such point, at
least one part in twice the base if it is counted in hundredths. So if the difference is small
enough, the error cannot carry the quotient across. Then both ways round to the same number of
hundredths, and take the same binary64 number for it.

For changes that are halfway the two may differ, and do: one rounds away from zero, and the other to
the even neighbour.
-/

namespace PropertyMarket

/-- The change from a base to a current number in percent, in exact arithmetic and before any
rounding. -/
def percentOf (current base : ℤ) : ℚ := 100 * (current - base) / base

/-- The change as the store gives it: the exact quotient rounded to two places away from zero, and
the result rounded to binary64. -/
def storedPercent (current base : ℤ) : ℚ :=
  (Double.nearest (roundAway 2 (percentOf current base))).value

/-- The change as it is computed of rows at hand: the quotient in binary64, then rounded to two
places, of two the even one. -/
def computedPercent (current base : ℤ) : ℚ :=
  ((Number.divInt (100 * (current - base)) base).roundPlaces 2).value

/-! ### Rounding that survives an approximation

A number of hundredths is strictly nearest to the exact change if that is not halfway. It is still
strictly nearest to whatever is close enough to the change. -/

/-- What is strictly nearest to a quotient of a small number is nearest to its approximation in
binary64 too. -/
theorem near_of_approximation {num den k : ℕ} {x : ℚ} (hd : 0 < den) (small : num < 2 ^ 52)
    (close : |x - num / den| * 2 ^ 53 ≤ num / den) (near : |(num : ℚ) / den - k| < 1 / 2) :
    |x - k| < 1 / 2 := by
  have hden : (0 : ℚ) < den := by exact_mod_cast hd
  -- The quotient keeps a distance from the halves that its denominator determines.
  have gap : |(num : ℚ) / den - k| * (2 * den) ≤ den - 1 := by
    have scaled : |(num : ℚ) / den - k| * (2 * den) = |((2 * (num - k * den) : ℤ) : ℚ)| := by
      have units : ((2 * (num - k * den) : ℤ) : ℚ) = ((num : ℚ) / den - k) * (2 * den) := by
        push_cast
        field_simp
      rw [units, abs_mul, abs_of_pos (by positivity : (0 : ℚ) < 2 * den)]
    have less : |(2 * (num - k * den) : ℤ)| < den := by
      have : |((2 * (num - k * den) : ℤ) : ℚ)| < (den : ℤ) := by
        rw [← scaled]
        push_cast
        nlinarith
      exact_mod_cast this
    rw [scaled]
    have : |(2 * (num - k * den) : ℤ)| ≤ den - 1 := by omega
    exact_mod_cast this
  have off : |x - num / den| * (2 * den) < 1 := by
    have numerator : (num : ℚ) < 2 ^ 52 := by exact_mod_cast small
    have scaled : |x - num / den| * den * 2 ^ 53 ≤ num := by
      calc |x - num / den| * den * 2 ^ 53 = |x - num / den| * 2 ^ 53 * den := by ring
        _ ≤ (num : ℚ) / den * den := by gcongr
        _ = (num : ℚ) := div_mul_cancel₀ _ hden.ne'
    linarith
  have total : |x - k| * (2 * den) < 1 / 2 * (2 * den) := by
    calc |x - k| * (2 * den)
        ≤ (|x - num / den| + |(num : ℚ) / den - k|) * (2 * den) := by
          gcongr
          exact abs_sub_le _ _ _
      _ < 1 / 2 * (2 * den) := by linarith
  exact lt_of_mul_lt_mul_right total (by positivity)

/-- A rational that is not halfway is strictly nearest to its rounding. -/
theorem abs_sub_lt_of_not_isHalfway {places : ℕ} {x : ℚ} (apart : ¬IsHalfway places x) :
    abs (|x| * 10 ^ places - roundQuotient (x.num.natAbs * Nat.pow 10 places) x.den) < 1 / 2 := by
  have near := abs_sub_roundQuotient_le x.den_pos (x.num.natAbs * Nat.pow 10 places)
  rw [← abs_mul_pow_eq] at near
  refine near.lt_of_ne fun half => apart ?_
  generalize roundQuotient (x.num.natAbs * Nat.pow 10 places) x.den = k at half
  obtain above | below := (abs_eq (by norm_num)).1 half
  · exact ⟨k, by linarith⟩
  · have positive : 0 ≤ |x| * 10 ^ places := by positivity
    cases k with
    | zero =>
      rw [Nat.cast_zero] at below
      linarith
    | succ k =>
      refine ⟨k, ?_⟩
      push_cast at below
      linarith

/-! ### The two ways

Signs apart, both ways are roundings of a quotient of natural numbers, so they are compared on
these. The sign is that of the change, and a zero has the value zero whatever its sign. -/

namespace Double

theorem units_eq (m : ℕ) (e : ℤ) :
    ((m * Nat.pow 2 e.toNat : ℕ) : ℚ) / (Nat.pow 2 (-e).toNat : ℕ) = m * 2 ^ e := by
  have pow (n : ℕ) : ((Nat.pow 2 n : ℕ) : ℚ) = 2 ^ n := Nat.cast_pow 2 n
  rw [two_zpow_eq, Nat.cast_mul, pow, pow]
  ring

/-- Rounding a binary64 number to places, once its nearest number of such places is known. -/
theorem roundPlaces_eq {m k : ℕ} {e : ℤ} (s : Bool) (places : ℕ)
    (near : |(m : ℚ) * 2 ^ e * 10 ^ places - k| < 1 / 2) :
    (finite s m e).roundPlaces places = ofQuotient s k (Nat.pow 10 places) := by
  rw [roundPlaces]
  refine congrArg (fun n => ofQuotient s n _)
    (roundQuotient_eq_of_near (Nat.pow_pos (by decide)) ?_)
  have pow : ((Nat.pow 10 places : ℕ) : ℚ) = 10 ^ places := Nat.cast_pow 10 places
  have units := units_eq m e
  rw [Nat.cast_mul, pow, mul_div_right_comm]
  rw [← units] at near
  exact near

/-- Rounding a binary64 number to places leaves it in range. -/
theorem isFinite_roundPlaces {m : ℕ} {e : ℤ} (s : Bool) (places : ℕ)
    (range : (m : ℚ) * 2 ^ e + 1 < 2 ^ (1000 : ℤ)) :
    ((finite s m e).roundPlaces places).isFinite := by
  have one_le : (1 : ℚ) ≤ 10 ^ places := one_le_pow₀ (by norm_num)
  have pow : ((Nat.pow 10 places : ℕ) : ℚ) = 10 ^ places := Nat.cast_pow 10 places
  have den_pos : 0 < Nat.pow 2 (-e).toNat := Nat.pow_pos (by decide)
  have near := abs_sub_roundQuotient_le den_pos (m * Nat.pow 2 e.toNat * Nat.pow 10 places)
  have units := units_eq m e
  rw [roundPlaces]
  refine isFinite_ofQuotient s (Nat.pow_pos (by decide)) ?_
  rw [Nat.cast_mul _ (Nat.pow 10 places), mul_div_right_comm, units, pow] at near
  rw [pow, div_lt_iff₀ (by positivity)]
  have close := (abs_le.1 near).1
  have room : ((m : ℚ) * 2 ^ e + 1) * 10 ^ places < 2 ^ (1000 : ℤ) * 10 ^ places := by gcongr
  linarith

theorem value_ofQuotient_zero (s : Bool) (den : ℕ) : (ofQuotient s 0 den).value = 0 :=
  value_zeroOf s

end Double

section Agreement

variable {current base : ℤ}

theorem abs_percentOf (current base : ℤ) :
    |percentOf current base| = ((100 * (current - base)).natAbs : ℚ) / base.natAbs := by
  rw [percentOf, abs_div, Nat.cast_natAbs, Nat.cast_natAbs]
  push_cast
  rw [abs_mul]

/-- The sign of a change, as the quotient of two integers has it. -/
theorem sign_percentOf (moved : current ≠ base) (hb : base ≠ 0) :
    (decide (100 * (current - base) < 0) != decide (base < 0)) =
      decide (percentOf current base < 0) := by
  have negative : percentOf current base < 0 ↔
      0 < 100 * (current - base) ∧ base < 0 ∨ 100 * (current - base) < 0 ∧ 0 < base := by
    have quotient : percentOf current base = ((100 * (current - base) : ℤ) : ℚ) / (base : ℤ) := by
      rw [percentOf]
      push_cast
      rfl
    rw [quotient, div_neg_iff, Int.cast_pos, Int.cast_lt_zero, Int.cast_lt_zero, Int.cast_pos]
  rw [Bool.eq_iff_iff, decide_eq_true_iff, negative, bne_iff_ne, ne_eq, decide_eq_decide]
  omega

/-- The change in binary64, if there is one, is close to the change: it has its sign, and a relative
error of `2 ^ -53` at most. -/
theorem exists_divInt (moved : current ≠ base) (hb : base ≠ 0) (moderate : |base| ≤ 2 ^ 900)
    (range : |percentOf current base| < 2 ^ (1000 : ℤ)) :
    ∃ m e, Number.divInt (100 * (current - base)) base =
        .finite (decide (percentOf current base < 0)) m e ∧
      abs ((m : ℚ) * 2 ^ e - |percentOf current base|) * 2 ^ 53 ≤ |percentOf current base| := by
  have num_pos : 0 < (100 * (current - base)).natAbs := by omega
  have den_pos : 0 < base.natAbs := by omega
  have den_pos' : (0 : ℚ) < base.natAbs := by exact_mod_cast den_pos
  have den_le : (base.natAbs : ℚ) ≤ 2 ^ (900 : ℤ) := by
    have cast : ((|base| : ℤ) : ℚ) ≤ ((2 ^ 900 : ℤ) : ℚ) := Int.cast_le.2 moderate
    rwa [Int.cast_pow, ← zpow_natCast, ← Nat.cast_natAbs] at cast
  have least : (2 : ℚ) ^ (-1000 : ℤ) ≤ (100 * (current - base)).natAbs / base.natAbs := by
    rw [le_div_iff₀ den_pos']
    calc (2 : ℚ) ^ (-1000 : ℤ) * base.natAbs ≤ 2 ^ (-1000 : ℤ) * 2 ^ (900 : ℤ) := by gcongr
      _ = 2 ^ (-100 : ℤ) := (zpow_add₀ two_ne_zero _ _).symm
      _ ≤ 2 ^ (0 : ℤ) := zpow_le_zpow_right₀ one_le_two (by decide)
      _ = 1 := zpow_zero 2
      _ ≤ (100 * (current - base)).natAbs := by exact_mod_cast num_pos
  rw [abs_percentOf] at range
  obtain ⟨m, e, rounded, close⟩ := Double.ofQuotient_near
    (decide (100 * (current - base) < 0) != decide (base < 0)) num_pos den_pos least range
  rw [sign_percentOf moved hb] at rounded
  rw [← abs_percentOf] at close
  refine ⟨m, e, ?_, close⟩
  rw [Number.divInt, sign_percentOf moved hb]
  exact rounded

theorem divInt_self (n : ℤ) :
    Number.divInt (100 * (n - n)) n =
      .finite (decide (100 * (n - n) < 0) != decide (n < 0)) 0 Double.minExponent := by
  rw [Number.divInt, sub_self, mul_zero]
  rfl

theorem abs_sub_le_of_moderate {m n : ℤ} (hm : |m| ≤ 2 ^ 900) (hn : |n| ≤ 2 ^ 900) :
    |m - n| ≤ 2 ^ 901 := by
  calc |m - n| ≤ |m| + |n| := abs_sub m n
    _ ≤ 2 ^ 900 + 2 ^ 900 := add_le_add hm hn
    _ = 2 ^ 901 := (two_mul _).symm.trans (pow_succ' 2 900).symm

/-- A change is in range if the integers are moderate. -/
theorem abs_percentOf_lt (hb : base ≠ 0) (moderate : |current - base| ≤ 2 ^ 901) :
    |percentOf current base| < 2 ^ (999 : ℤ) := by
  have den_pos : (1 : ℚ) ≤ base.natAbs := by exact_mod_cast (by omega : 1 ≤ base.natAbs)
  have difference : |(current : ℚ) - base| ≤ 2 ^ (901 : ℤ) := by
    have cast : ((|current - base| : ℤ) : ℚ) ≤ ((2 ^ 901 : ℤ) : ℚ) := Int.cast_le.2 moderate
    rwa [Int.cast_pow, ← zpow_natCast, Int.cast_abs, Int.cast_sub] at cast
  rw [abs_percentOf, div_lt_iff₀ (by linarith)]
  calc ((100 * (current - base)).natAbs : ℚ) = 100 * |(current : ℚ) - base| := by
        rw [Nat.cast_natAbs]
        push_cast
        rw [abs_mul]
        norm_num
    _ ≤ 100 * 2 ^ (901 : ℤ) := by gcongr
    _ < 2 ^ (7 : ℤ) * 2 ^ (901 : ℤ) := by
        gcongr
        norm_num
    _ = 2 ^ (908 : ℤ) := (zpow_add₀ two_ne_zero _ _).symm
    _ ≤ 2 ^ (999 : ℤ) := zpow_le_zpow_right₀ one_le_two (by decide)
    _ ≤ 2 ^ (999 : ℤ) * base.natAbs := le_mul_of_one_le_right (by positivity) den_pos

/-- The store gives a change in percent if the integers are moderate. -/
theorem isFinite_stored (hb : base ≠ 0) (difference : |current - base| ≤ 2 ^ 901) :
    (Double.nearest (roundAway 2 (percentOf current base))).isFinite := by
  refine Double.isFinite_nearest ?_
  calc |roundAway 2 (percentOf current base)| ≤ |percentOf current base| + 1 :=
        abs_roundAway_le 2 _
    _ < 2 ^ (999 : ℤ) + 2 ^ (0 : ℤ) := by
        rw [zpow_zero]
        exact add_lt_add_left (abs_percentOf_lt hb difference) 1
    _ ≤ 2 ^ (999 : ℤ) + 2 ^ (999 : ℤ) := by
        gcongr
        · exact one_le_two
        · decide
    _ = 2 ^ (1000 : ℤ) := by
        rw [show (1000 : ℤ) = 999 + 1 from rfl, zpow_add_one₀ two_ne_zero]
        ring

/-- So do rows at hand. -/
theorem isFinite_computed (hb : base ≠ 0) (moderate : |base| ≤ 2 ^ 900)
    (difference : |current - base| ≤ 2 ^ 901) :
    (Number.divInt (100 * (current - base)) base).isFinite ∧
      ((Number.divInt (100 * (current - base)) base).roundPlaces 2).isFinite := by
  obtain rfl | moved := eq_or_ne current base
  · rw [divInt_self, Double.roundPlaces_eq (k := 0) _ 2 (by rw [Nat.cast_zero]; norm_num)]
    exact ⟨rfl, rfl⟩
  · have size := abs_percentOf_lt hb difference
    have range := size.trans (zpow_lt_zpow_right₀ one_lt_two (by decide : (999 : ℤ) < 1000))
    obtain ⟨m, e, computed, close⟩ := exists_divInt moved hb moderate range
    rw [computed]
    refine ⟨rfl, Double.isFinite_roundPlaces _ 2 ?_⟩
    have double : (2 : ℚ) ^ (1000 : ℤ) = 2 ^ (999 : ℤ) * 2 := by
      rw [← zpow_add_one₀ two_ne_zero]
      rfl
    have large : (16 : ℚ) ≤ 2 ^ (999 : ℤ) := by
      calc (16 : ℚ) = 2 ^ (4 : ℤ) := by norm_num
        _ ≤ 2 ^ (999 : ℤ) := zpow_le_zpow_right₀ one_le_two (by decide)
    have above := le_abs_self ((m : ℚ) * 2 ^ e - |percentOf current base|)
    rw [double]
    generalize (2 : ℚ) ^ (999 : ℤ) = most at size large ⊢
    linarith

/-- A number of hundredths has the same value with the sign of its unit as with the sign of what it
is rounded from. -/
theorem value_ofQuotient_signed (x : ℚ) (k den : ℕ) :
    (Double.ofQuotient ((if x.num < 0 then -(k : ℤ) else k) < 0)
      (if x.num < 0 then -(k : ℤ) else k).natAbs den).value =
      (Double.ofQuotient (decide (x < 0)) k den).value := by
  have size : (if x.num < 0 then -(k : ℤ) else k).natAbs = k := by
    split <;> omega
  rw [size]
  obtain rfl | positive := Nat.eq_zero_or_pos k
  · rw [Double.value_ofQuotient_zero, Double.value_ofQuotient_zero]
  · have sign : decide ((if x.num < 0 then -(k : ℤ) else k) < 0) = decide (x < 0) := by
      rw [decide_eq_decide, ← Rat.num_neg]
      split <;> omega
    rw [sign]

/-- **The store and rows at hand agree on every change that is not halfway**, if the base is
moderate and ten thousand times the difference is below `2 ^ 52`. -/
theorem storedPercent_eq_computedPercent (hb : base ≠ 0) (moderate : |base| ≤ 2 ^ 900)
    (apart : ¬IsHalfway 2 (percentOf current base))
    (small : 10000 * |current - base| < 2 ^ 52) :
    storedPercent current base = computedPercent current base := by
  obtain rfl | moved := eq_or_ne current base
  · have unchanged : percentOf current current = (0 : ℤ) := by simp [percentOf]
    rw [storedPercent, unchanged, roundAway_intCast, computedPercent, divInt_self,
      Double.roundPlaces_eq (k := 0) _ 2 (by rw [Nat.cast_zero]; norm_num)]
    exact (Double.value_ofQuotient_zero _ _).trans (Double.value_ofQuotient_zero _ _).symm
  · have difference : |current - base| ≤ 2 ^ 901 := by
      have : |current - base| ≤ 2 ^ 52 := by omega
      exact this.trans (pow_le_pow_right₀ one_le_two (by decide))
    have range := (abs_percentOf_lt hb difference).trans
      (zpow_lt_zpow_right₀ one_lt_two (by decide : (999 : ℤ) < 1000))
    obtain ⟨m, e, computed, close⟩ := exists_divInt moved hb moderate range
    have near := abs_sub_lt_of_not_isHalfway apart
    rw [storedPercent, (roundAway_eq_roundRat_iff 2 _).2 (mt IsHalfwayFromEven.isHalfway apart),
      computedPercent, computed]
    simp only [roundRat]
    rw [Double.nearest_mkRat _ (by decide : 0 < Nat.pow 10 2)]
    generalize roundQuotient ((percentOf current base).num.natAbs * Nat.pow 10 2)
      (percentOf current base).den = k at near ⊢
    rw [Double.roundPlaces_eq (k := k) _ 2, value_ofQuotient_signed]
    rw [abs_percentOf] at close near
    have den_pos : 0 < base.natAbs := by omega
    have num_lt : 100 * (100 * (current - base)).natAbs < 2 ^ 52 := by
      rw [Int.abs_eq_natAbs] at small
      omega
    have hundredths : (((100 * (100 * (current - base)).natAbs : ℕ) : ℚ) / base.natAbs) =
        (100 * (current - base)).natAbs / base.natAbs * 10 ^ 2 := by
      push_cast
      ring
    refine near_of_approximation den_pos num_lt ?_ ?_
    · rw [hundredths, ← sub_mul, abs_mul]
      norm_num
      norm_num at close
      linarith
    · rw [hundredths]
      exact near

end Agreement

end PropertyMarket
