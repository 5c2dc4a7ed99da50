import Mathlib.Algebra.Order.Field.Power
import Mathlib.Tactic.Positivity
import PropertyMarket.Proofs.Rounding

/-!
# The nearest binary64 number

A quotient is rounded to binary64 in the unit in which it has 53 bits, or in the least unit if it
has no room for them. That unit, and so the whole rounding, only depends on the quotient and not on
how it is written; and the rounding is off by half a unit at most, which is a small part of any
quotient that is not tiny.

## Main definitions

* `Double.value` — the rational that a binary64 number denotes, zero for those that denote none
* `Double.IsUnitOf` — the unit in which a rational is rounded
* `Double.nearest` — the binary64 number nearest to a rational

## Main results

* `Double.isUnitOf_unitExponent`, `Double.IsUnitOf.unique` — every quotient has exactly one unit
* `Double.ofQuotient_mul_left` — the rounding only depends on the quotient
* `Double.ofQuotient_near` — how far it is off

## Implementation notes

The unit of a quotient is characterized by inequalities that mention only the quotient, and proved
to be unique by them. The function that finds it works with logarithms of numerator and denominator,
so it is not obvious that it finds the same for two fractions that are equal; but as what it finds
satisfies the inequalities, it does.
-/

namespace PropertyMarket

namespace Double

/-- The rational that a binary64 number denotes; zero for an infinity or a NaN. The theorems that
use it ask for a finite number, so the default is never met. -/
def value (x : Double) : ℚ := x.toRat?.getD 0

/-! ### Units

The two inequalities say that the quotient, measured in the unit, is below `2 ^ 53` and not below `2
^ 52`, unless the unit is the least one there is. Logarithms tell the size of a quotient up to two
bits, which leaves two candidates for its unit. -/

/-- The unit `2 ^ e` is the one in which a positive rational has 53 bits, or the least unit if even
that leaves fewer bits. -/
structure IsUnitOf (x : ℚ) (e : ℤ) : Prop where
  least : minExponent ≤ e
  above : x < 2 ^ precision * 2 ^ e
  below : e = minExponent ∨ 2 ^ (precision - 1) * 2 ^ e ≤ x

theorem two_zpow_eq (e : ℤ) : (2 : ℚ) ^ e = 2 ^ e.toNat / 2 ^ (-e).toNat := by
  obtain ⟨n, rfl | rfl⟩ := e.eq_nat_or_neg
  · simp
  · simp

/-- A rational has only one unit, because the intervals of significands of neighbouring units do not
overlap. -/
theorem IsUnitOf.unique {x : ℚ} {e f : ℤ} (he : IsUnitOf x e) (hf : IsUnitOf x f) : e = f := by
  have not_less {a b : ℤ} (ha : IsUnitOf x a) (hb : IsUnitOf x b) : ¬a < b := by
    intro less
    obtain least | enough := hb.below
    · exact absurd ha.least (by omega)
    · -- The greater unit would leave one bit less.
      have smaller : (2 : ℚ) ^ (a + 1) ≤ 2 ^ b := zpow_le_zpow_right₀ one_le_two (by omega)
      have bits : (2 : ℚ) ^ precision * 2 ^ a = 2 ^ (precision - 1) * 2 ^ (a + 1) := by
        rw [zpow_add_one₀ two_ne_zero, precision]
        ring
      have high := ha.above
      rw [bits] at high
      exact absurd (high.trans_le (mul_le_mul_of_nonneg_left smaller (by positivity)))
        (not_lt.2 enough)
  have := not_less he hf
  have := not_less hf he
  omega

variable {num den : ℕ}

theorem inUnits_pos (h : 0 < den) (num : ℕ) (e : ℤ) : 0 < (inUnits num den e).2 :=
  Nat.mul_pos h (Nat.pow_pos (by decide))

/-- The quotient of natural numbers in units of `2 ^ e`. -/
theorem inUnits_div (num den : ℕ) (e : ℤ) :
    ((inUnits num den e).1 : ℚ) / (inUnits num den e).2 = num / den / 2 ^ e := by
  have pow (n : ℕ) : ((Nat.pow 2 n : ℕ) : ℚ) = 2 ^ n := Nat.cast_pow 2 n
  rw [inUnits, two_zpow_eq, Nat.cast_mul, Nat.cast_mul, pow, pow]
  field_simp

/-- Whole units are counted by the natural quotient: it is at least `n` exactly if `n` units fit. -/
theorem le_units_iff (h : 0 < den) (num : ℕ) (e : ℤ) (n : ℕ) :
    n ≤ (inUnits num den e).1 / (inUnits num den e).2 ↔ n * 2 ^ e ≤ (num : ℚ) / den := by
  have pos := inUnits_pos h num e
  have pos' : (0 : ℚ) < (inUnits num den e).2 := by exact_mod_cast pos
  rw [Nat.le_div_iff_mul_le pos, ← le_div_iff₀ (by positivity), ← inUnits_div, le_div_iff₀ pos']
  exact_mod_cast Iff.rfl

/-- The logarithms of numerator and denominator tell the size of a quotient up to two bits. -/
theorem quotient_within_log (hn : 0 < num) (hd : 0 < den) :
    (2 : ℚ) ^ ((num.log2 : ℤ) - den.log2 - 1) < num / den ∧
      (num : ℚ) / den < 2 ^ ((num.log2 : ℤ) - den.log2 + 1) := by
  have low (n : ℕ) (h : 0 < n) : (2 : ℚ) ^ (n.log2 : ℤ) ≤ n := by
    exact_mod_cast Nat.log2_self_le h.ne'
  have high (n : ℕ) (h : 0 < n) : (n : ℚ) < 2 ^ ((n.log2 : ℤ) + 1) := by
    exact_mod_cast (Nat.log2_lt h.ne').1 (Nat.lt_succ_self _)
  have hden : (0 : ℚ) < den := by exact_mod_cast hd
  constructor
  · rw [lt_div_iff₀ hden]
    calc (2 : ℚ) ^ ((num.log2 : ℤ) - den.log2 - 1) * den
        < 2 ^ ((num.log2 : ℤ) - den.log2 - 1) * 2 ^ ((den.log2 : ℤ) + 1) := by
          gcongr
          exact high den hd
      _ = 2 ^ (num.log2 : ℤ) := by
          rw [← zpow_add₀ two_ne_zero]
          congr 1
          ring
      _ ≤ num := low num hn
  · rw [div_lt_iff₀ hden]
    calc (num : ℚ) < 2 ^ ((num.log2 : ℤ) + 1) := high num hn
      _ = 2 ^ ((num.log2 : ℤ) - den.log2 + 1) * 2 ^ (den.log2 : ℤ) := by
          rw [← zpow_add₀ two_ne_zero]
          congr 1
          ring
      _ ≤ 2 ^ ((num.log2 : ℤ) - den.log2 + 1) * den := by
          gcongr
          exact low den hd

/-- The unit of a quotient: the exponent that is computed from the logarithms is the one with a full
significand, or the least one. -/
theorem isUnitOf_unitExponent (hn : 0 < num) (hd : 0 < den) :
    IsUnitOf ((num : ℚ) / den) (unitExponent num den) := by
  obtain ⟨above, below⟩ := quotient_within_log hn hd
  obtain ⟨top, htop⟩ : ∃ top : ℤ, top = (num.log2 : ℤ) - den.log2 := ⟨_, rfl⟩
  rw [← htop] at above below
  have power (a b : ℤ) (hab : a ≤ b) : (2 : ℚ) ^ a ≤ 2 ^ b := zpow_le_zpow_right₀ one_le_two hab
  have scale (n : ℕ) (e : ℤ) : (2 : ℚ) ^ n * 2 ^ e = 2 ^ (n + e) := by
    rw [zpow_add₀ two_ne_zero, zpow_natCast]
  have bound : ((Nat.pow 2 precision : ℕ) : ℚ) = 2 ^ precision := Nat.cast_pow 2 precision
  simp only [unitExponent, ← htop]
  generalize hlow : max minExponent (top - precision) = low
  have many := le_units_iff hd num low (Nat.pow 2 precision)
  rw [bound, scale] at many
  split
  · rename_i full
    have full := many.1 full
    refine ⟨by omega, ?_, .inr ?_⟩
    · rw [scale]
      exact below.trans_le (power _ _ (by omega))
    · rw [scale]
      refine le_trans (power _ _ ?_) full
      rw [precision]
      omega
  · rename_i short
    have short := lt_of_not_ge (mt many.2 short)
    refine ⟨by omega, by rw [scale]; exact short, ?_⟩
    by_cases least : low = minExponent
    · exact .inl least
    · refine .inr ?_
      rw [scale]
      refine le_trans (power _ _ ?_) above.le
      rw [precision] at hlow ⊢
      omega

theorem unitExponent_mul_left {k : ℕ} (hk : 0 < k) (hn : 0 < num) (hd : 0 < den) :
    unitExponent (k * num) (k * den) = unitExponent num den := by
  have same : ((k * num : ℕ) : ℚ) / (k * den : ℕ) = num / den := by
    have : (k : ℚ) ≠ 0 := by exact_mod_cast hk.ne'
    push_cast
    exact mul_div_mul_left _ _ this
  have unit := isUnitOf_unitExponent (Nat.mul_pos hk hn) (Nat.mul_pos hk hd)
  rw [same] at unit
  exact unit.unique (isUnitOf_unitExponent hn hd)

/-- The rounding of a quotient to binary64 only depends on the quotient, and not on how its two
numbers share a factor. -/
theorem ofQuotient_mul_left {k : ℕ} (hk : 0 < k) (hd : 0 < den) (s : Bool) (num : ℕ) :
    ofQuotient s (k * num) (k * den) = ofQuotient s num den := by
  obtain rfl | hn := Nat.eq_zero_or_pos num
  · rfl
  · have units (e : ℤ) : inUnits (k * num) (k * den) e =
        (k * (inUnits num den e).1, k * (inUnits num den e).2) := by
      simp only [inUnits, Nat.mul_assoc]
    have hkn : k * num ≠ 0 := (Nat.mul_pos hk hn).ne'
    simp only [ofQuotient, hkn, hn.ne', if_false, unitExponent_mul_left hk hn hd, units,
      roundQuotient_mul_left hk]

/-! ### What the rounding denotes

The number of units is rounded to a natural number, and the result denotes that many units, whether
or not it has carried into another bit. Below `2 ^ 1000` nothing overflows, and all results here ask
for that. -/

theorem value_finite (s : Bool) (m : ℕ) (e : ℤ) :
    value (.finite s m e) = (if s then -1 else 1) * (m * 2 ^ e) := by
  simp only [value, toRat?, quotient?, Option.map_some, Option.getD_some]
  rw [Rat.mkRat_eq_div, two_zpow_eq]
  cases s <;> simp <;> ring

theorem value_zeroOf (s : Bool) : value (zeroOf s) = 0 := by
  rw [zeroOf, value_finite]
  simp

theorem toRat?_eq {x : Double} (h : x.isFinite) : x.toRat? = some x.value := by
  cases x with
  | finite s m e => rfl
  | _ => nomatch h

/-- A number that counts as whole has a whole quotient. -/
theorem toInt?_eq_some {x : Double} {z n : ℤ} (denoted : x.quotient? = some (z, den))
    (whole : x.toInt? = some n) : (den : ℤ) ∣ z ∧ n = z / den := by
  rw [toInt?, denoted] at whole
  dsimp only at whole
  split at whole
  · next divides => exact ⟨Int.dvd_of_emod_eq_zero divides, (Option.some.inj whole).symm⟩
  · nomatch whole

/-- It is the integer that it counts as. -/
theorem value_of_toInt? {x : Double} {n : ℤ} (h : x.toInt? = some n) : x.value = n := by
  cases denoted : x.quotient? with
  | none =>
    rw [toInt?, denoted] at h
    nomatch h
  | some q =>
    obtain ⟨z, den⟩ := q
    obtain ⟨divides, rfl⟩ := toInt?_eq_some denoted h
    rw [value, toRat?, denoted, Option.map_some, Option.getD_some, Rat.mkRat_eq_div]
    obtain rfl | positive := Nat.eq_zero_or_pos den
    · simp
    · have nonzero : ((den : ℤ) : ℚ) ≠ 0 := by exact_mod_cast positive.ne'
      rw [Int.cast_div divides nonzero, Int.cast_natCast]

/-- A quotient that is in range is rounded to a whole number of its units. -/
theorem ofQuotient_eq_finite (s : Bool) (hn : 0 < num) (hd : 0 < den)
    (range : (num : ℚ) / den < 2 ^ (1000 : ℤ)) :
    ∃ m e n : _, ofQuotient s num den = .finite s m e ∧
      (m : ℚ) * 2 ^ e = (n : ℕ) * 2 ^ unitExponent num den ∧
      |(num : ℚ) / den / 2 ^ unitExponent num den - n| ≤ 1 / 2 := by
  have unit := isUnitOf_unitExponent hn hd
  have near := abs_sub_roundQuotient_le (inUnits_pos hd num (unitExponent num den))
    (inUnits num den (unitExponent num den)).1
  rw [inUnits_div] at near
  -- The unit is far below the greatest one, also after a carry.
  have small : unitExponent num den + 1 ≤ maxExponent := by
    obtain least | enough := unit.below
    · rw [least]
      decide
    · have powers : (2 : ℚ) ^ ((precision - 1 : ℕ) + unitExponent num den) < 2 ^ (1000 : ℤ) := by
        rw [zpow_add₀ two_ne_zero, zpow_natCast]
        exact enough.trans_lt range
      have exponents := (zpow_lt_zpow_iff_right₀ one_lt_two).1 powers
      rw [precision] at exponents
      rw [maxExponent]
      omega
  simp only [ofQuotient, hn.ne', if_false]
  generalize unitExponent num den = e at near small
  generalize roundQuotient (inUnits num den e).1 (inUnits num den e).2 = n at near
  split
  · rename_i carry
    refine ⟨Nat.pow 2 (precision - 1), e + 1, n, if_neg (by omega), ?_, near⟩
    rw [carry, zpow_add_one₀ two_ne_zero]
    norm_num [precision]
    ring
  · exact ⟨n, e, n, if_neg (by omega), rfl, near⟩

/-- A quotient in range is rounded to a finite number. -/
theorem isFinite_ofQuotient (s : Bool) (hd : 0 < den) (range : (num : ℚ) / den < 2 ^ (1000 : ℤ)) :
    (ofQuotient s num den).isFinite := by
  obtain rfl | hn := Nat.eq_zero_or_pos num
  · rfl
  · obtain ⟨m, e, -, finite, -⟩ := ofQuotient_eq_finite s hn hd range
    rw [finite]
    rfl

/-- A quotient that is neither tiny nor out of range is rounded to one that differs from it by at
most one part in `2 ^ 53`. -/
theorem ofQuotient_near (s : Bool) (hn : 0 < num) (hd : 0 < den)
    (least : (2 : ℚ) ^ (-1000 : ℤ) ≤ num / den) (range : (num : ℚ) / den < 2 ^ (1000 : ℤ)) :
    ∃ m e, ofQuotient s num den = .finite s m e ∧
      |(m : ℚ) * 2 ^ e - num / den| * 2 ^ precision ≤ num / den := by
  obtain ⟨m, e, n, rounded, same, near⟩ := ofQuotient_eq_finite s hn hd range
  have unit := isUnitOf_unitExponent hn hd
  refine ⟨m, e, rounded, ?_⟩
  rw [same]
  generalize unitExponent num den = u at near unit
  generalize (num : ℚ) / den = x at *
  have full : (2 : ℚ) ^ (precision - 1) * 2 ^ u ≤ x := by
    obtain lowest | full := unit.below
    · refine le_trans ?_ least
      rw [lowest, ← zpow_natCast, ← zpow_add₀ two_ne_zero]
      exact zpow_le_zpow_right₀ one_le_two (by decide)
    · exact full
  have positive : (0 : ℚ) < 2 ^ u := by positivity
  have off : |(n : ℚ) * 2 ^ u - x| = |x / 2 ^ u - n| * 2 ^ u := by
    rw [← abs_of_pos positive, ← abs_mul, abs_of_pos positive, sub_mul,
      div_mul_cancel₀ _ positive.ne', abs_sub_comm]
  calc |(n : ℚ) * 2 ^ u - x| * 2 ^ precision
      = |x / 2 ^ u - n| * (2 ^ u * 2 ^ precision) := by rw [off, mul_assoc]
    _ ≤ 1 / 2 * (2 ^ u * 2 ^ precision) := by gcongr
    _ = 2 ^ (precision - 1) * 2 ^ u := by
        norm_num [precision]
        ring
    _ ≤ x := full

/-! ### Rationals

A rational number is rounded as its fraction in lowest terms. As the rounding does not depend on how
a quotient is written, any other fraction would do. -/

/-- The binary64 number nearest to a rational, a tie going to the even significand. -/
def nearest (x : ℚ) : Double := ofQuotient (x < 0) x.num.natAbs x.den

/-- The nearest number to a fraction can be read off the fraction as it is written. -/
theorem nearest_mkRat (z : ℤ) (hd : 0 < den) :
    nearest (mkRat z den) = ofQuotient (z < 0) z.natAbs den := by
  have sign : (mkRat z den < 0) ↔ z < 0 := by
    rw [Rat.mkRat_eq_div, div_lt_iff₀ (by exact_mod_cast hd), zero_mul]
    exact_mod_cast Iff.rfl
  rcases reduced : mkRat z den with ⟨n, d, nonzero, coprime⟩
  obtain ⟨k, hk, rfl, rfl⟩ := Rat.mkRat_num_den hd.ne' reduced
  rw [reduced] at sign
  rw [nearest, decide_eq_decide.2 sign, Int.natAbs_mul, Int.natAbs_natCast, Nat.mul_comm _ k,
    Nat.mul_comm _ k, ofQuotient_mul_left (Nat.pos_of_ne_zero hk) (Nat.pos_of_ne_zero nonzero)]

/-- A rational in range has a nearest number. -/
theorem isFinite_nearest {x : ℚ} (range : |x| < 2 ^ (1000 : ℤ)) : (nearest x).isFinite := by
  have size := abs_mul_pow_eq 0 x
  rw [pow_zero, mul_one, show Nat.pow 10 0 = 1 from rfl, Nat.mul_one] at size
  exact isFinite_ofQuotient _ x.den_pos (size ▸ range)

end Double

end PropertyMarket
