import Mathlib.Algebra.Order.Field.Basic
import Mathlib.Algebra.Order.Ring.Rat
import Mathlib.Data.Nat.Cast.Order.Field
import Mathlib.Data.Rat.Floor
import Mathlib.Tactic.FieldSimp
import Mathlib.Tactic.Linarith
import Mathlib.Tactic.Ring
import PropertyMarket.Statistics

/-!
# Two ways to round to places

Rows at hand are rounded to decimal places with a half going to the even neighbour, while the
store rounds its exact decimals with a half going away from zero. The two only part where a number
lies halfway between two neighbours of which the one nearer to zero is even.

## Main definitions

* `roundAway` — a rational rounded to decimal places, a half away from zero
* `IsHalfway`, `IsHalfwayFromEven` — halfway between two neighbours, the lower one being even

## Main results

* `roundQuotient_eq_of_near` — what is nearer than a half is the rounding
* `roundQuotient_eq_iff` — which whole number the rounding is
* `roundAway_div_pow` — what has no more places is not rounded
* `roundAway_eq_roundRat_iff` — exactly where the two ways agree

## Implementation notes

Both roundings are defined on quotients of natural numbers, where a half is a remainder of half the
denominator, and are then carried over to rationals by sign and places. The comparison is made on
the quotients: one rounding is the other one plus one in the single case in which they differ, so on
rationals they differ by one unit of the last place there, and not at all elsewhere.
-/

namespace PropertyMarket

/-! ### Quotients of natural numbers

A quotient is rounded to the nearest whole number, and a tie is broken in one of two ways. The
rounding to even is characterized by the distance to the quotient alone, which is what most uses of
it need. -/

/-- The whole number nearest to `num / den`; a half goes up. -/
def roundQuotientUp (num den : ℕ) : ℕ := (2 * num + den) / (2 * den)

section Quotient

variable {num den : ℕ}

/-- The rounding of a quotient is within half a unit of it. -/
theorem abs_sub_roundQuotient_le (h : 0 < den) (num : ℕ) :
    |(num : ℚ) / den - roundQuotient num den| ≤ 1 / 2 := by
  have hden : (0 : ℚ) < den := by exact_mod_cast h
  obtain ⟨low, high⟩ := two_mul_sub_roundQuotient_le h num
  have low : (2 : ℚ) * num ≤ 2 * (roundQuotient num den * den) + den := by exact_mod_cast low
  have high : (2 : ℚ) * (roundQuotient num den * den) ≤ 2 * num + den := by exact_mod_cast high
  rw [abs_le]
  constructor
  · rw [le_sub_iff_add_le, le_div_iff₀ hden]
    linarith
  · rw [sub_le_iff_le_add, div_le_iff₀ hden]
    linarith

/-- What is nearer to a quotient than a half is its rounding, so where there is no tie the rule for
ties does not matter. -/
theorem roundQuotient_eq_of_near (h : 0 < den) {n : ℕ} (near : |(num : ℚ) / den - n| < 1 / 2) :
    roundQuotient num den = n := by
  have rounded := abs_sub_roundQuotient_le h num
  have apart : |((roundQuotient num den : ℤ) : ℚ) - (n : ℤ)| < 1 := by
    calc |((roundQuotient num den : ℤ) : ℚ) - (n : ℤ)|
        = |((num : ℚ) / den - n) - ((num : ℚ) / den - roundQuotient num den)| := by
          push_cast
          congr 1
          ring
      _ ≤ |(num : ℚ) / den - n| + |(num : ℚ) / den - roundQuotient num den| := abs_sub _ _
      _ < 1 := by linarith
  have apart : |(roundQuotient num den : ℤ) - n| < 1 := by exact_mod_cast apart
  have same := Int.abs_lt_one_iff.1 apart
  omega

/-- A rounding that is half a unit off is even. -/
theorem even_roundQuotient_of_half (h : 0 < den)
    (half : |(num : ℚ) / den - roundQuotient num den| = 1 / 2) : Even (roundQuotient num den) := by
  have hden : (den : ℚ) ≠ 0 := by exact_mod_cast h.ne'
  have key := Nat.div_add_mod num den
  have lt := Nat.mod_lt num h
  have twice : 2 * num = 2 * (den * roundQuotient num den) + den ∨
      2 * num + den = 2 * (den * roundQuotient num den) := by
    rcases eq_or_eq_neg_of_abs_eq half with above | below
    · left
      have : (num : ℚ) = (roundQuotient num den + 1 / 2) * den := by
        rw [← sub_eq_iff_eq_add'.1 above, div_mul_cancel₀ _ hden]
      have : (2 : ℚ) * num = 2 * (den * roundQuotient num den) + den := by rw [this]; ring
      exact_mod_cast this
    · right
      have : (num : ℚ) = (roundQuotient num den - 1 / 2) * den := by
        rw [sub_eq_add_neg, ← sub_eq_iff_eq_add'.1 below, div_mul_cancel₀ _ hden]
      have : (2 : ℚ) * num + den = 2 * (den * roundQuotient num den) := by rw [this]; ring
      exact_mod_cast this
  unfold roundQuotient at twice ⊢
  split_ifs at twice ⊢ with low high
  · omega
  · rw [Nat.mul_add, Nat.mul_one] at twice
    omega
  · rw [Nat.even_iff]
    omega

/-- The rounding is the whole number that is within half a unit, and of two of them the even one. So
whatever is so near is the rounding, however it has been found. -/
theorem roundQuotient_eq_iff (h : 0 < den) {n : ℕ} : roundQuotient num den = n ↔
    |(num : ℚ) / den - n| ≤ 1 / 2 ∧ (|(num : ℚ) / den - n| = 1 / 2 → Even n) := by
  constructor
  · rintro rfl
    exact ⟨abs_sub_roundQuotient_le h num, even_roundQuotient_of_half h⟩
  · rintro ⟨near, tie⟩
    obtain less | half := near.lt_or_eq
    · exact roundQuotient_eq_of_near h less
    · have rounded := abs_sub_roundQuotient_le h num
      have even := tie half
      by_contra differs
      -- Two whole numbers within half a unit of one quotient are next to each other.
      obtain ⟨low, high⟩ := abs_le.1 rounded
      obtain ⟨low', high'⟩ := abs_le.1 near
      have above : (roundQuotient num den : ℚ) ≤ n + 1 := by linarith
      have below : (n : ℚ) ≤ roundQuotient num den + 1 := by linarith
      have above : roundQuotient num den ≤ n + 1 := by exact_mod_cast above
      have below : n ≤ roundQuotient num den + 1 := by exact_mod_cast below
      have also_half : |(num : ℚ) / den - roundQuotient num den| = 1 / 2 := by
        obtain next | next : roundQuotient num den = n + 1 ∨ n = roundQuotient num den + 1 := by
          omega
        · rw [next] at low ⊢
          push_cast at low ⊢
          rw [abs_of_nonpos (by linarith)]
          linarith
        · rw [next] at high' low'
          push_cast at high' low'
          rw [abs_of_nonneg (by linarith)]
          linarith
      have even' := even_roundQuotient_of_half h also_half
      rw [Nat.even_iff] at even even'
      omega

/-- The rounding only depends on the quotient. -/
theorem roundQuotient_mul_left {k : ℕ} (hk : 0 < k) (num den : ℕ) :
    roundQuotient (k * num) (k * den) = roundQuotient num den := by
  have less (a b : ℕ) : k * a < k * b ↔ a < b := Nat.mul_lt_mul_left hk
  have twice (a : ℕ) : 2 * (k * a) = k * (2 * a) := by ring
  simp only [roundQuotient, Nat.mul_div_mul_left num den hk, Nat.mul_mod_mul_left, twice, less]

/-- Rounding a half up is rounding it to even, except for a half above an even number. -/
theorem roundQuotientUp_eq (h : 0 < den) (num : ℕ) :
    roundQuotientUp num den =
      if 2 * (num % den) = den ∧ num / den % 2 = 0 then roundQuotient num den + 1
      else roundQuotient num den := by
  have key := Nat.div_add_mod num den
  have lt := Nat.mod_lt num h
  have up : roundQuotientUp num den = num / den + (2 * (num % den) + den) / (2 * den) := by
    have parts : 2 * num + den = 2 * (num % den) + den + 2 * den * (num / den) := by
      conv_lhs => rw [← key]
      ring
    rw [roundQuotientUp, parts, Nat.add_mul_div_left _ _ (by omega), Nat.add_comm]
  have carry : (2 * (num % den) + den) / (2 * den) = if 2 * (num % den) < den then 0 else 1 := by
    split
    · exact Nat.div_eq_of_lt (by omega)
    · exact Nat.div_eq_of_lt_le (by omega) (by omega)
  rw [up, carry, roundQuotient]
  generalize num / den = q
  generalize num % den = r
  split_ifs <;> omega

/-- A quotient is a half above an even number exactly if its remainder is half the denominator. -/
theorem exists_even_add_half_iff (h : 0 < den) (num : ℕ) :
    (∃ k : ℕ, (num : ℚ) / den = 2 * k + 1 / 2) ↔ 2 * (num % den) = den ∧ num / den % 2 = 0 := by
  have hden : (den : ℚ) ≠ 0 := by exact_mod_cast h.ne'
  have key := Nat.div_add_mod num den
  constructor
  · rintro ⟨k, hk⟩
    have twice : (2 : ℚ) * num = (4 * k + 1) * den := by
      rw [div_eq_iff hden] at hk
      rw [hk]
      ring
    have twice : 2 * num = (4 * k + 1) * den := by exact_mod_cast twice
    have whole : num / den = 2 * k := by
      refine Nat.div_eq_of_lt_le ?_ ?_ <;> nlinarith
    rw [whole] at key ⊢
    refine ⟨?_, by omega⟩
    have expanded : 2 * (den * (2 * k) + num % den) = 4 * k * den + den := by
      rw [key, twice]
      ring
    linarith
  · rintro ⟨half, even⟩
    obtain ⟨k, hk⟩ : ∃ k, num / den = 2 * k := ⟨num / den / 2, by omega⟩
    refine ⟨k, ?_⟩
    rw [hk] at key
    have half : (2 : ℚ) * (num % den : ℕ) = den := by exact_mod_cast half
    have key : (den : ℚ) * (2 * k) + (num % den : ℕ) = num := by exact_mod_cast key
    rw [div_eq_iff hden, ← key]
    linarith

end Quotient

/-! ### Rationals

A rational is rounded to places by rounding its size in units of the last place, with its sign put
back. -/

/-- A rational rounded to decimal places, a half away from zero. This is the rounding of the
store. -/
def roundAway (places : ℕ) (x : ℚ) : ℚ :=
  let n := roundQuotientUp (x.num.natAbs * Nat.pow 10 places) x.den
  mkRat (if x.num < 0 then -(n : ℤ) else n) (Nat.pow 10 places)

/-- The rational lies halfway between two neighbouring numbers of so many places. Only there do the
two rules for ties part. -/
def IsHalfway (places : ℕ) (x : ℚ) : Prop := ∃ k : ℕ, |x| * 10 ^ places = k + 1 / 2

/-- The rational lies halfway between two neighbouring numbers of so many places, and the one
nearer to zero ends in an even digit. -/
def IsHalfwayFromEven (places : ℕ) (x : ℚ) : Prop := ∃ k : ℕ, |x| * 10 ^ places = 2 * k + 1 / 2

theorem IsHalfwayFromEven.isHalfway {places : ℕ} {x : ℚ} (h : IsHalfwayFromEven places x) :
    IsHalfway places x := by
  obtain ⟨k, hk⟩ := h
  exact ⟨2 * k, by rw [hk]; push_cast; rfl⟩

/-- The size of a rational in units of its last place, as a quotient of natural numbers. -/
theorem abs_mul_pow_eq (places : ℕ) (x : ℚ) :
    |x| * 10 ^ places = ((x.num.natAbs * Nat.pow 10 places : ℕ) : ℚ) / x.den := by
  have size : |x| = (x.num.natAbs : ℚ) / x.den := by
    conv_lhs => rw [← Rat.num_div_den x]
    rw [abs_div, Nat.abs_cast, ← Int.cast_abs, Int.abs_eq_natAbs]
    rfl
  have unit : ((Nat.pow 10 places : ℕ) : ℚ) = 10 ^ places := Nat.cast_pow 10 places
  rw [size, Nat.cast_mul, unit]
  ring

/-- How far a whole number with the sign of a quotient is off from it, in any unit, can be seen
without the signs. -/
theorem abs_sub_signed (num : ℤ) (den n : ℕ) (scale : ℚ) :
    |(num : ℚ) / den * scale - (if num < 0 then -(n : ℤ) else n : ℤ)| =
      |(num.natAbs : ℚ) / den * scale - n| := by
  rw [Nat.cast_natAbs, Int.cast_abs]
  split
  case isTrue below =>
    have size : |(num : ℚ)| = -num := abs_of_neg (by exact_mod_cast below)
    rw [size, ← abs_neg]
    congr 1
    push_cast
    ring
  case isFalse above =>
    have size : |(num : ℚ)| = num := abs_of_nonneg (by exact_mod_cast not_lt.1 above)
    rw [size, Int.cast_natCast]

/-- A number of so many places is not changed by rounding to them. -/
theorem roundAway_div_pow (places : ℕ) (n : ℤ) :
    roundAway places (n / 10 ^ places) = n / 10 ^ places := by
  have unit : ((Nat.pow 10 places : ℕ) : ℚ) = 10 ^ places := Nat.cast_pow 10 places
  have positive : (0 : ℚ) < 10 ^ places := by positivity
  generalize hx : (n / 10 ^ places : ℚ) = x
  have scaled : |x| * 10 ^ places = (n.natAbs : ℕ) := by
    rw [← hx, abs_div, abs_of_pos positive, div_mul_cancel₀ _ positive.ne', Nat.cast_natAbs,
      Int.cast_abs]
  have whole : x.num.natAbs * Nat.pow 10 places = n.natAbs * x.den := by
    rw [abs_mul_pow_eq, div_eq_iff (by exact_mod_cast x.den_nz)] at scaled
    exact_mod_cast scaled
  have rounded : roundQuotientUp (x.num.natAbs * Nat.pow 10 places) x.den = n.natAbs := by
    rw [whole, roundQuotientUp]
    refine Nat.div_eq_of_lt_le ?_ ?_ <;> nlinarith [x.den_pos]
  have sign : x.num < 0 ↔ n < 0 := by
    rw [Rat.num_neg, ← hx, div_lt_iff₀ positive, zero_mul, Int.cast_lt_zero]
  have signed : (if x.num < 0 then -(n.natAbs : ℤ) else n.natAbs) = n := by
    simp only [sign]
    omega
  simp only [roundAway, rounded, signed]
  rw [Rat.mkRat_eq_div, ← hx, unit]

/-- An integer is not changed. -/
theorem roundAway_intCast (places : ℕ) (n : ℤ) : roundAway places n = n := by
  have positive : (0 : ℚ) < 10 ^ places := by positivity
  have placed : (n : ℚ) = (n * 10 ^ places : ℤ) / 10 ^ places := by
    rw [Int.cast_mul, Int.cast_pow, Int.cast_ofNat, mul_div_cancel_right₀ _ positive.ne']
  rw [placed, roundAway_div_pow]

/-- Rounding changes a rational by less than one. -/
theorem abs_roundAway_le (places : ℕ) (x : ℚ) : |roundAway places x| ≤ |x| + 1 := by
  have unit : ((Nat.pow 10 places : ℕ) : ℚ) = 10 ^ places := Nat.cast_pow 10 places
  have one_le : (1 : ℚ) ≤ 10 ^ places := one_le_pow₀ (by norm_num)
  have size : |roundAway places x| * 10 ^ places =
      roundQuotientUp (x.num.natAbs * Nat.pow 10 places) x.den := by
    simp only [roundAway]
    rw [Rat.mkRat_eq_div, abs_div, unit, abs_of_pos (zero_lt_one.trans_le one_le),
      div_mul_cancel₀ _ (zero_lt_one.trans_le one_le).ne']
    split <;> simp
  have le : ((roundQuotientUp (x.num.natAbs * Nat.pow 10 places) x.den : ℕ) : ℚ) ≤
      |x| * 10 ^ places + 1 / 2 := by
    have hden : (x.den : ℚ) ≠ 0 := by exact_mod_cast x.den_nz
    rw [abs_mul_pow_eq, roundQuotientUp]
    refine Nat.cast_div_le.trans (le_of_eq ?_)
    push_cast
    field_simp
  have scaled : |roundAway places x| * 10 ^ places ≤ (|x| + 1) * 10 ^ places := by
    rw [size]
    linarith
  exact le_of_mul_le_mul_right scaled (by positivity)

/-- **The two ways agree except halfway from an even neighbour.** The sign does not matter, and
neither does the number of places. -/
theorem roundAway_eq_roundRat_iff (places : ℕ) (x : ℚ) :
    roundAway places x = roundRat places x ↔ ¬IsHalfwayFromEven places x := by
  have unit : Nat.pow 10 places ≠ 0 := (Nat.pow_pos (by decide)).ne'
  have unit' : ((Nat.pow 10 places : ℕ) : ℤ) ≠ 0 := by exact_mod_cast unit
  rw [IsHalfwayFromEven, abs_mul_pow_eq, exists_even_add_half_iff x.den_pos, roundAway, roundRat,
    Rat.mkRat_eq_iff unit unit, roundQuotientUp_eq x.den_pos]
  generalize x.num.natAbs * Nat.pow 10 places = num
  simp only [mul_eq_mul_right_iff, unit', or_false]
  by_cases parted : 2 * (num % x.den) = x.den ∧ num / x.den % 2 = 0
  · refine iff_of_false ?_ (not_not_intro parted)
    rw [if_pos parted]
    split <;> omega
  · rw [if_neg parted]
    exact iff_of_true rfl parted

end PropertyMarket
