import PropertyMarket.Proofs.StoredScope

/-!
# Numbers of few digits

A store casts a number in double precision to fifteen significant digits, and is sent one with
seventeen. Fifteen are too few to tell binary64 numbers apart, and seventeen are enough, as long as
the number that is compared with is not changed itself. What is proved here is how much of this
remains for a comparison.

Rounding to so many digits changes a number that has more, and leaves one that has not. So it is
idempotent: what is rounded once has few digits. And a bound that is sent stays on its side of every
other number of 53 bits. The seventeenth digit moves it by less than a ten thousand billionth, while
the two numbers are further apart than that: in the smaller of their last bits, each of them is a
whole number of units, and one of the two has less than `2 ^ 53`.

## Main definitions

* `FewBits` — a rational of 53 bits, at any place

## Main results

* `significant_mul_zpow`, `exists_significant_eq` — the numbers that so many digits do not change
  are those that are written with them
* `significant_significant` — rounding twice is rounding once
* `abs_sub_significant_le` — any number is changed by half a unit of its last digit at most
* `compare_significant` — a bound that is sent stays where it is among numbers of few digits
* `Value.Held.significant_eq`, `Number.Sendable.compare_asSent` — the same of values and bounds of
  a store

## Implementation notes

A bound that is *equal* to a value has to be sent as it is: seventeen digits of a binary64 number
are not the number in general. They are if fifteen suffice for it, and this is why
`compare_significant` asks that the number compared with is not changed by seventeen digits, and
nothing of that kind of the bound.
-/

namespace PropertyMarket

/-! ### Rounding to a whole number

A number to so many significant digits is a whole number of units of its last digit, so the facts
about digits come from those about rounding to a whole number. -/

theorem roundRat_intCast (n : ℤ) : roundRat 0 n = n := by
  have whole : ¬IsHalfwayFromEven 0 n := by
    rintro ⟨k, hk⟩
    have twice : 2 * |(n : ℚ)| = 4 * k + 1 := by
      rw [pow_zero, mul_one] at hk
      rw [hk]
      ring
    have twice : 2 * |n| = 4 * (k : ℤ) + 1 := by exact_mod_cast twice
    omega
  rw [← (roundAway_eq_roundRat_iff 0 n).2 whole, roundAway_intCast]

/-- A rational is rounded to an integer, which is within a half of it. -/
theorem exists_roundRat_eq (x : ℚ) : ∃ n : ℤ, roundRat 0 x = n ∧ |x - n| ≤ 1 / 2 := by
  have near := abs_sub_roundQuotient_le x.den_pos x.num.natAbs
  have rounded : roundRat 0 x = ((if x.num < 0 then -(roundQuotient x.num.natAbs x.den : ℤ)
      else roundQuotient x.num.natAbs x.den : ℤ) : ℚ) := by
    have unit : Nat.pow 10 0 = 1 := rfl
    simp only [roundRat, unit, Nat.mul_one, Rat.mkRat_eq_div, Nat.cast_one, div_one]
  have off := abs_sub_signed x.num x.den (roundQuotient x.num.natAbs x.den) 1
  rw [mul_one, mul_one, Rat.num_div_den] at off
  exact ⟨_, rounded, off.trans_le near⟩

theorem abs_sub_roundRat_le (x : ℚ) : |x - roundRat 0 x| ≤ 1 / 2 := by
  obtain ⟨n, rounded, near⟩ := exists_roundRat_eq x
  rwa [rounded]

/-! ### Significant digits

The unit of the last digit that is kept depends on the number itself: it is the power of ten that
leaves as many digits in front of the point as are kept. -/

theorem significant_zero (digits : ℕ) : significant digits 0 = 0 := by
  rw [significant, zero_div, ← Int.cast_zero, roundRat_intCast, Int.cast_zero, zero_mul]

/-- A whole number of units of the last digit is not changed. -/
theorem significant_eq_self {digits : ℕ} {x : ℚ} {n : ℤ}
    (whole : x = n * 10 ^ (Int.log 10 |x| + 1 - digits)) : significant digits x = x := by
  have unit_ne : (10 : ℚ) ^ (Int.log 10 |x| + 1 - digits) ≠ 0 := (zpow_pos (by norm_num) _).ne'
  have inUnits : x / 10 ^ (Int.log 10 |x| + 1 - digits) = n := (div_eq_iff unit_ne).2 whole
  simp only [significant, inUnits, roundRat_intCast, ← whole]

/-- What is written with so many digits, behind which there may be zeros, is not changed. -/
theorem significant_mul_zpow {digits : ℕ} {m : ℤ} (few : |(m : ℚ)| < 10 ^ digits) (k : ℤ) :
    significant digits (m * 10 ^ k) = m * 10 ^ k := by
  by_cases zero : m = 0
  · rw [zero, Int.cast_zero, zero_mul, significant_zero]
  · have place_pos : (0 : ℚ) < 10 ^ k := zpow_pos (by norm_num) _
    have size : |(m : ℚ) * 10 ^ k| = |(m : ℚ)| * 10 ^ k := by rw [abs_mul, abs_of_pos place_pos]
    have positive : 0 < |(m : ℚ) * 10 ^ k| := by
      rw [size]
      exact mul_pos (abs_pos.2 (Int.cast_ne_zero.2 zero)) place_pos
    have below : |(m : ℚ) * 10 ^ k| < ((10 : ℕ) : ℚ) ^ (digits + k : ℤ) := by
      rw [size, Nat.cast_ofNat, zpow_add₀ (by norm_num), zpow_natCast]
      exact mul_lt_mul_of_pos_right few place_pos
    have log_lt := (Int.lt_zpow_iff_log_lt (by decide) positive).1 below
    -- The last digit that is kept does not stand in front of the last one that is written.
    obtain ⟨i, hi⟩ := Int.eq_ofNat_of_zero_le
      (a := k - (Int.log 10 |(m : ℚ) * 10 ^ k| + 1 - digits)) (by omega)
    refine significant_eq_self (n := m * 10 ^ i) ?_
    push_cast
    rw [mul_assoc, ← zpow_natCast, ← hi, ← zpow_add₀ (by norm_num), sub_add_cancel]

/-- An integer of few digits is not changed. -/
theorem significant_intCast {digits : ℕ} {n : ℤ} (few : |(n : ℚ)| < 10 ^ digits) :
    significant digits n = n := by
  simpa using significant_mul_zpow few 0

/-- In units of the last digit that is kept a number has as many digits in front of the point. -/
theorem abs_div_unit_lt (digits : ℕ) (x : ℚ) :
    |x / 10 ^ (Int.log 10 |x| + 1 - digits)| < 10 ^ digits := by
  have unit_pos : (0 : ℚ) < 10 ^ (Int.log 10 |x| + 1 - digits) := zpow_pos (by norm_num) _
  have above : |x| < 10 ^ (Int.log 10 |x| + 1) := by
    exact_mod_cast Int.lt_zpow_succ_log_self (b := 10) (by decide) |x|
  rwa [abs_div, abs_of_pos unit_pos, div_lt_iff₀ unit_pos, ← zpow_natCast,
    ← zpow_add₀ (by norm_num), add_sub_cancel]

/-- Any number becomes one that is written with so many digits. Rounding may carry into one more
digit, but then the digits are those of a power of ten. -/
theorem exists_significant_eq {digits : ℕ} (some_digits : 0 < digits) (x : ℚ) :
    ∃ m k : ℤ, |(m : ℚ)| < 10 ^ digits ∧ significant digits x = m * 10 ^ k := by
  obtain ⟨m, rounded, near⟩ :=
    exists_roundRat_eq (x / 10 ^ (Int.log 10 |x| + 1 - digits))
  have value : significant digits x = m * 10 ^ (Int.log 10 |x| + 1 - digits) := by
    simp only [significant, rounded]
  have inUnits := abs_div_unit_lt digits x
  have most : |m| ≤ 10 ^ digits := by
    have : |(m : ℚ)| < 10 ^ digits + 1 := by
      have triangle := abs_sub_abs_le_abs_sub (m : ℚ) (x / 10 ^ (Int.log 10 |x| + 1 - digits))
      rw [abs_sub_comm] at triangle
      linarith
    have : |m| < 10 ^ digits + 1 := by exact_mod_cast this
    omega
  obtain less | full := lt_or_eq_of_le most
  · exact ⟨m, _, by exact_mod_cast less, value⟩
  · -- Rounding carried into one digit more, of which all but the first are zeros.
    obtain ⟨n, rfl⟩ : ∃ n, digits = n + 1 := ⟨digits - 1, by omega⟩
    obtain ⟨s, sign, hs⟩ : ∃ s : ℤ, |s| = 1 ∧ m = s * 10 ^ (n + 1) := by
      obtain same | opposite := (abs_eq (by positivity)).1 full
      · exact ⟨1, rfl, by rw [same, one_mul]⟩
      · exact ⟨-1, rfl, by rw [opposite, neg_one_mul]⟩
    refine ⟨s * 10 ^ n, Int.log 10 |x| + 1 - (n + 1 : ℕ) + 1, ?_, ?_⟩
    · have one : |(s : ℚ)| = 1 := by exact_mod_cast sign
      push_cast
      rw [abs_mul, one, one_mul, abs_of_pos (by positivity)]
      exact pow_lt_pow_right₀ (by norm_num) n.lt_succ_self
    · rw [value, hs, zpow_add_one₀ (by norm_num)]
      push_cast
      ring

/-- A number that some digits do not change is not changed by more. -/
theorem significant_eq_of_le {digits more : ℕ} (some_digits : 0 < digits) (le : digits ≤ more)
    {x : ℚ} (h : significant digits x = x) : significant more x = x := by
  obtain ⟨m, k, few, value⟩ := exists_significant_eq some_digits x
  rw [← h, value]
  exact significant_mul_zpow (few.trans_le (pow_le_pow_right₀ (by norm_num) le)) k

/-- **Rounding twice is rounding once.** A number of so many significant digits is left as it is. -/
theorem significant_significant {digits : ℕ} (some_digits : 0 < digits) (x : ℚ) :
    significant digits (significant digits x) = significant digits x := by
  obtain ⟨m, k, few, value⟩ := exists_significant_eq some_digits x
  rw [value, significant_mul_zpow few]

/-- Any number is changed by half a unit of its last digit at most. The unit is a fixed part of the
power of ten below the number, so this is a bound in terms of the number itself. -/
theorem abs_sub_significant_le (digits : ℕ) (x : ℚ) :
    |x - significant digits x| ≤ |x| * 10 ^ (1 - digits : ℤ) / 2 := by
  by_cases zero : x = 0
  · simp [zero, significant_zero]
  · have positive : 0 < |x| := abs_pos.2 zero
    have unit_pos : (0 : ℚ) < 10 ^ (Int.log 10 |x| + 1 - digits) := zpow_pos (by norm_num) _
    have leading : (10 : ℚ) ^ Int.log 10 |x| ≤ |x| := by
      exact_mod_cast Int.zpow_log_le_self (b := 10) (by decide) positive
    have unit_le : (10 : ℚ) ^ (Int.log 10 |x| + 1 - digits) ≤ |x| * 10 ^ (1 - digits : ℤ) := by
      rw [add_sub_assoc, zpow_add₀ (by norm_num)]
      exact mul_le_mul_of_nonneg_right leading (zpow_pos (by norm_num) _).le
    simp only [significant]
    generalize (10 : ℚ) ^ (Int.log 10 |x| + 1 - digits) = unit at *
    have scaled : x - roundRat 0 (x / unit) * unit = (x / unit - roundRat 0 (x / unit)) * unit := by
      rw [sub_mul, div_mul_cancel₀ x unit_pos.ne']
    rw [scaled, abs_mul, abs_of_pos unit_pos]
    calc |x / unit - roundRat 0 (x / unit)| * unit
        ≤ 1 / 2 * unit := mul_le_mul_of_nonneg_right (abs_sub_roundRat_le _) unit_pos.le
      _ ≤ |x| * 10 ^ (1 - digits : ℤ) / 2 := by linarith

/-! ### Numbers of 53 bits

Two such numbers that differ are some way apart, measured by either of them. This is what the
seventeenth digit does not reach. -/

/-- A rational of 53 bits, at any place. All that binary64 holds are such, and so are the integers
up to `2 ^ 53`; how large the place may be does not matter here. -/
def FewBits (x : ℚ) : Prop := ∃ z e : ℤ, |(z : ℚ)| ≤ 2 ^ 53 ∧ x = z * 2 ^ e

theorem fewBits_intCast {n : ℤ} (few : |(n : ℚ)| ≤ 2 ^ 53) : FewBits n :=
  ⟨n, 0, few, by rw [zpow_zero, mul_one]⟩

theorem Double.fewBits_value {x : Double} (finite : x.isFinite) (normal : x.IsNormal) :
    FewBits x.value := by
  cases x with
  | finite negative m e =>
    have bits : (m : ℚ) ≤ 2 ^ 53 := by exact_mod_cast (normal : Normal m e).bits.le
    refine ⟨if negative then -m else m, e, ?_, ?_⟩
    · cases negative <;> simpa using bits
    · rw [value_finite]
      cases negative <;> simp
  | nan | infinite => exact absurd finite Bool.false_ne_true

/-- What is nearer to a number than another one lies on the same side of that one. -/
theorem compare_eq_of_near {x y z : ℚ} (near : |x - z| < |y - x|) : compare y z = compare y x := by
  obtain less | equal | more := lt_trichotomy y x
  · have below : y < z := by
      rw [abs_of_neg (sub_neg.2 less)] at near
      have := abs_lt.1 near
      linarith
    rw [compare_lt_iff_lt.2 less, compare_lt_iff_lt.2 below]
  · rw [equal, sub_self, abs_zero] at near
    exact absurd near (not_lt.2 (abs_nonneg _))
  · have above : z < y := by
      rw [abs_of_pos (sub_pos.2 more)] at near
      have := abs_lt.1 near
      linarith
    rw [compare_gt_iff_gt.2 more, compare_gt_iff_gt.2 above]

/-- Different multiples of a unit are at least one unit apart. -/
theorem unit_le_abs_sub {u x y : ℚ} (positive : 0 < u) {a b : ℤ} (hx : x = a * u) (hy : y = b * u)
    (ne : x ≠ y) : u ≤ |x - y| := by
  have apart : (1 : ℚ) ≤ |((a - b : ℤ) : ℚ)| := by
    have differ : a - b ≠ 0 := sub_ne_zero.2 fun same => ne (by rw [hx, hy, same])
    exact_mod_cast Int.one_le_abs differ
  rw [hx, hy, ← sub_mul, abs_mul, abs_of_pos positive, ← Int.cast_sub]
  exact le_mul_of_one_le_left positive.le apart

/-- Different numbers of 53 bits are farther apart than the seventeenth digit of one reaches. It
does not matter which of the two is the larger one. -/
theorem seventeenth_digit_lt {x y : ℚ} (hx : FewBits x) (hy : FewBits y) (ne : y ≠ x) :
    |x| * 10 ^ (1 - (17 : ℕ) : ℤ) / 2 < |y - x| := by
  obtain ⟨a, e, few, rfl⟩ := hx
  obtain ⟨b, f, few', rfl⟩ := hy
  have digit : (10 : ℚ) ^ (1 - (17 : ℕ) : ℤ) = 1 / 10 ^ 16 := by norm_num
  -- The larger unit is a multiple of the smaller one.
  have refined {e f : ℤ} (le : e ≤ f) (c : ℤ) :
      (c : ℚ) * 2 ^ f = (c * 2 ^ (f - e).toNat : ℤ) * 2 ^ e := by
    push_cast
    rw [mul_assoc, ← zpow_natCast, Int.toNat_of_nonneg (by omega), ← zpow_add₀ two_ne_zero,
      sub_add_cancel]
  have unit_pos (e : ℤ) : (0 : ℚ) < 2 ^ e := zpow_pos two_pos e
  have size {c : ℤ} (few : |(c : ℚ)| ≤ 2 ^ 53) (e : ℤ) : |(c : ℚ) * 2 ^ e| ≤ 2 ^ 53 * 2 ^ e := by
    rw [abs_mul, abs_of_pos (unit_pos e)]
    exact mul_le_mul_of_nonneg_right few (unit_pos e).le
  have small := size few e
  have small' := size few' f
  rw [digit]
  obtain le | le := le_total e f
  · -- In units of the last bit of `x`, which has no more than `2 ^ 53` of them.
    have apart := unit_le_abs_sub (unit_pos e) (refined le b) rfl ne
    have positive := unit_pos e
    linarith
  · -- In units of the last bit of `y`. If `x` has too many of them, then it is far from `y`.
    have apart := unit_le_abs_sub (unit_pos f) rfl (refined le a) ne
    have positive := unit_pos f
    have distance := abs_sub_abs_le_abs_sub ((a : ℚ) * 2 ^ e) (b * 2 ^ f)
    rw [abs_sub_comm] at distance
    by_cases large : |(a : ℚ) * 2 ^ e| ≤ 2 ^ 54 * 2 ^ f <;> linarith

/-- **Sending a bound with seventeen digits leaves it where it is** among numbers that seventeen
digits do not change. -/
theorem compare_significant {x y : ℚ} (hx : FewBits x) (hy : FewBits y)
    (kept : significant 17 y = y) : compare y (significant 17 x) = compare y x := by
  by_cases same : y = x
  · rw [← same, kept]
  · exact compare_eq_of_near ((abs_sub_significant_le 17 _).trans_lt
      (seventeenth_digit_lt hx hy same))

/-! ### A store

Values and bounds as a store has them. Integers and decimals are compared as they are; for numbers
in double precision the results above say when a cast and a bound that is sent do not change a
comparison. -/

section Store

variable {d : Dialect} {kind : Cell.Kind} {v : Value} {q : ℚ}

/-- What a column holds has 53 bits. -/
theorem Value.Held.fewBits (h : v.Held kind) (hq : v.rational? = some q) : FewBits q := by
  cases h with
  | null => cases hq
  | int n few =>
    rw [Value.rational?_int] at hq
    exact Option.some.inj hq ▸ fewBits_intCast few
  | double finite normal =>
    rw [Value.rational?_double finite] at hq
    exact Option.some.inj hq ▸ Double.fewBits_value finite normal

/-- What is not changed by the cast of its column is not changed by seventeen digits. -/
theorem Value.Held.significant_eq (h : v.Held kind) (cast : d.toExact = significant 15)
    (hq : v.rational? = some q) (kept : d.exact kind q = q) : significant 17 q = q := by
  cases h with
  | null => cases hq
  | int n few =>
    rw [Value.rational?_int] at hq
    rw [← Option.some.inj hq]
    exact significant_intCast (few.trans_lt (by norm_num))
  | double =>
    rw [Dialect.exact, if_pos rfl, cast] at kept
    exact significant_eq_of_le (by decide) (by decide) kept

/-- Such a number is compared with a bound that is sent as with the bound itself. -/
theorem Number.Sendable.compare_asSent {x : Number} (h : x.Sendable)
    (sent : d.sent = significant 17) {y : ℚ}
    (hy : FewBits y) (kept : significant 17 y = y) :
    compare y (x.asSent d) = compare y x.value := by
  cases h with
  | int n => rfl
  | decimal x => rfl
  | @double x finite normal =>
    rw [asSent, sent, value_double finite]
    exact compare_significant (Double.fewBits_value finite normal) hy kept

end Store

end PropertyMarket
