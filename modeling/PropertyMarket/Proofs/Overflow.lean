import PropertyMarket.Proofs.Nearest

/-!
# Numbers out of range

A quotient is rounded to an infinity from the point on where the largest finite number and the power
of two after it are equally near. Below that point it is rounded to a finite number, of at most 53
bits and with a unit that is not above the largest one.

## Main definitions

* `Double.overflow` — the least size for which binary64 has no room

## Main results

* `Double.isFinite_ofQuotient_iff`, `Double.ofInt?_eq_none_iff` — what is too large
* `Double.bounds_of_ofQuotient_eq` — the bits and the unit of what is not

## Implementation notes

Rounding can only carry into one more bit where a number is half a unit or less below a power of
two. At the largest unit this carry is the overflow, so the bound comes out as an equivalence: the
nearest number to a quotient is finite exactly if the quotient is below the point halfway to the
next power of two, where the even neighbour is that power.
-/

namespace PropertyMarket

/-! ### Overflow

Three cases, by the unit of the quotient: below the largest unit nothing overflows, above it
everything does, and in the largest unit the rounding decides. -/

/-- A quotient below an even number is rounded to that number exactly if it is no more than a half
away from it. -/
theorem roundQuotient_eq_even_iff {num den n : ℕ} (h : 0 < den) (even : n % 2 = 0)
    (below : num < n * den) : roundQuotient num den = n ↔ 2 * (n * den) ≤ 2 * num + den := by
  have key := Nat.div_add_mod num den
  have rest := Nat.mod_lt num h
  have less : num / den < n := Nat.div_lt_of_lt_mul (by rwa [Nat.mul_comm])
  rw [roundQuotient]
  generalize num / den = q at *
  generalize num % den = r at *
  obtain rfl | far : n = q + 1 ∨ q + 2 ≤ n := by omega
  · have scaled : 2 * ((q + 1) * den) ≤ 2 * num + den ↔ den ≤ 2 * r := by
      rw [← key, Nat.add_mul, Nat.mul_comm q]
      omega
    rw [scaled]
    split_ifs <;> omega
  · have scaled : (q + 2) * den ≤ n * den := Nat.mul_le_mul_right den far
    rw [Nat.add_mul, Nat.mul_comm q] at scaled
    split_ifs <;> omega

namespace Double

/-- The least size for which binary64 has no room: halfway from its greatest number to the power of
two that comes next. -/
def overflow : ℕ := (2 ^ (precision + 1) - 1) * 2 ^ (maxExponent - 1).toNat

example : overflow = 2 ^ 1024 - 2 ^ 970 := by decide +kernel

theorem overflow_pos : 0 < overflow := Nat.mul_pos (by decide) (Nat.two_pow_pos _)

/-- In units of the largest numbers, the overflow is half a unit below a carry. -/
theorem overflow_eq : (overflow : ℚ) = (2 ^ precision - 1 / 2) * 2 ^ maxExponent := by
  have unit : (2 : ℚ) ^ maxExponent = 2 ^ (maxExponent - 1).toNat * 2 := by
    rw [← zpow_natCast, ← zpow_add_one₀ two_ne_zero]
    rfl
  have digits : ((2 ^ (precision + 1) - 1 : ℕ) : ℚ) = (2 ^ precision - 1 / 2) * 2 := by
    norm_num [precision]
  rw [unit, overflow, Nat.cast_mul, digits, Nat.cast_pow, Nat.cast_ofNat]
  ring

variable {num den : ℕ}

@[simp] theorem isFinite_pack (s : Bool) (m : ℕ) (e : ℤ) :
    (pack s m e).isFinite = decide (e ≤ maxExponent) := by
  unfold pack
  split
  · next high => rw [decide_eq_false (by omega)]; rfl
  · next room => rw [decide_eq_true (by omega)]; rfl

/-- Below the largest unit, even a carry stays in range. -/
theorem lt_overflow {x : ℚ} {e : ℤ} (low : e < maxExponent) (above : x < 2 ^ precision * 2 ^ e) :
    x < overflow := by
  refine above.trans_le ?_
  have positive : (0 : ℚ) < 2 ^ e := by positivity
  have half : (2 : ℚ) ^ e ≤ 2 ^ (maxExponent - 1) := zpow_le_zpow_right₀ one_le_two (by omega)
  have twice : (2 : ℚ) ^ maxExponent = 2 * 2 ^ (maxExponent - 1) := by
    rw [zpow_sub_one₀ two_ne_zero]
    ring
  rw [overflow_eq, twice, precision]
  nlinarith

/-- Above the largest unit there is no room at all. -/
theorem overflow_le {x : ℚ} {e : ℤ} (high : maxExponent < e)
    (below : 2 ^ (precision - 1) * 2 ^ e ≤ x) : overflow ≤ x := by
  refine le_trans ?_ below
  have positive : (0 : ℚ) < 2 ^ e := by positivity
  have double : (2 : ℚ) ^ maxExponent * 2 ≤ 2 ^ e := by
    rw [← zpow_add_one₀ two_ne_zero]
    exact zpow_le_zpow_right₀ one_le_two (by omega)
  rw [overflow_eq, precision]
  nlinarith

/-- A quotient is rounded to a finite number exactly if it does not overflow, that is, if it is
below the least size for which there is no room. -/
theorem isFinite_ofQuotient_iff (s : Bool) (hn : 0 < num) (hd : 0 < den) :
    (ofQuotient s num den).isFinite = true ↔ (num : ℚ) / den < overflow := by
  have unit := isUnitOf_unitExponent hn hd
  have size := inUnits_div num den (unitExponent num den)
  have pos := inUnits_pos hd num (unitExponent num den)
  have rounded : (ofQuotient s num den).isFinite = true ↔
      ¬(maxExponent < unitExponent num den ∨ (unitExponent num den = maxExponent ∧
        roundQuotient (inUnits num den (unitExponent num den)).1
          (inUnits num den (unitExponent num den)).2 = 2 ^ precision)) := by
    simp only [ofQuotient, hn.ne', if_false, Nat.pow_eq]
    generalize unitExponent num den = e
    split_ifs <;> rw [isFinite_pack, decide_eq_true_iff] <;> omega
  rw [rounded, not_iff_comm, not_lt, iff_comm]
  generalize unitExponent num den = e at *
  generalize (num : ℚ) / den = x at *
  generalize inUnits num den e = units at *
  obtain low | rfl | high := lt_trichotomy e maxExponent
  · exact iff_of_false (by omega) (not_le.2 (lt_overflow low unit.above))
  · -- In the largest unit, a number overflows if it is rounded up to a carry.
    have positive : (0 : ℚ) < 2 ^ maxExponent := by positivity
    have positive' : (0 : ℚ) < units.2 := by exact_mod_cast pos
    have below : units.1 < 2 ^ precision * units.2 := by
      have above := unit.above
      rw [← div_lt_iff₀ positive, ← size, div_lt_iff₀ positive'] at above
      exact_mod_cast above
    rw [roundQuotient_eq_even_iff pos (by decide) below, overflow_eq, ← le_div_iff₀ positive,
      ← size, le_div_iff₀ positive']
    have cast : 2 * (2 ^ precision * units.2) ≤ 2 * units.1 + units.2 ↔
        (2 : ℚ) * (2 ^ precision * units.2) ≤ 2 * units.1 + units.2 := by exact_mod_cast Iff.rfl
    rw [cast]
    constructor
    · rintro (absurd | ⟨-, carry⟩)
      · exact absurd.false.elim
      · linarith
    · intro carry
      exact .inr ⟨rfl, by linarith⟩
  · refine iff_of_true (.inl high) (overflow_le high (unit.below.resolve_left ?_))
    rw [maxExponent] at high
    rw [minExponent]
    omega

theorem pack_ne_nan (s : Bool) (m : ℕ) (e : ℤ) : pack s m e ≠ .nan := by
  unfold pack
  split <;> nofun

theorem ofQuotient_ne_nan (s : Bool) (num den : ℕ) : ofQuotient s num den ≠ .nan := by
  unfold ofQuotient
  dsimp only
  split_ifs
  · nofun
  · exact pack_ne_nan _ _ _
  · exact pack_ne_nan _ _ _

theorem ofDecimal_ne_nan (s : Bool) (digits : ℕ) (e : ℤ) : ofDecimal s digits e ≠ .nan := by
  unfold ofDecimal
  split_ifs
  · nofun
  · nofun
  · nofun
  · exact ofQuotient_ne_nan _ _ _

/-- An integer has no number exactly if it overflows, whatever its sign. -/
theorem ofInt?_eq_none_iff (n : ℤ) : ofInt? n = none ↔ overflow ≤ n.natAbs := by
  have unnumbered : ofInt? n = none ↔ ¬(ofInt n).isFinite = true := by
    have number : ofInt n ≠ .nan := ofQuotient_ne_nan _ _ _
    unfold ofInt?
    revert number
    cases ofInt n with
    | nan => exact fun number => absurd rfl number
    | infinite s => simp [isFinite]
    | finite s m e => simp [isFinite]
  rw [unnumbered, ofInt]
  obtain rfl | nonzero := eq_or_ne n 0
  · exact iff_of_false (not_not.2 rfl) (not_le.2 overflow_pos)
  · rw [isFinite_ofQuotient_iff _ (Int.natAbs_pos.2 nonzero) Nat.one_pos, Nat.cast_one, div_one,
      not_lt, Nat.cast_le]

theorem ofInt?_ne_nan (n : ℤ) : ofInt? n ≠ some .nan := by
  have number : ofInt n ≠ .nan := ofQuotient_ne_nan _ _ _
  unfold ofInt?
  split
  · nofun
  · exact fun same => number (Option.some.inj same)

/-! ### Numbers in range

A number that has not overflowed has been packed into 53 bits with a unit that binary64 has. -/

theorem eq_of_pack_eq {s t : Bool} {m n : ℕ} {e f : ℤ} (h : pack s m e = .finite t n f) :
    s = t ∧ m = n ∧ e = f ∧ f ≤ maxExponent := by
  unfold pack at h
  split at h
  · nomatch h
  · next room =>
    obtain ⟨rfl, rfl, rfl⟩ := Double.finite.inj h
    exact ⟨rfl, rfl, rfl, not_lt.1 room⟩

/-- A finite number has at most 53 bits, and no unit above the largest one. -/
theorem bounds_of_ofQuotient_eq {s t : Bool} {m : ℕ} {e : ℤ} (hd : 0 < den)
    (h : ofQuotient s num den = .finite t m e) : m < 2 ^ precision ∧ e ≤ maxExponent := by
  unfold ofQuotient at h
  split at h
  · obtain ⟨-, rfl, rfl⟩ := Double.finite.inj h
    exact ⟨by decide, by decide⟩
  · next nonzero =>
    have hn : 0 < num := Nat.pos_of_ne_zero nonzero
    have unit := isUnitOf_unitExponent hn hd
    have pos := inUnits_pos hd num (unitExponent num den)
    dsimp only at h
    split at h
    · obtain ⟨-, rfl, rfl, room⟩ := eq_of_pack_eq h
      exact ⟨by decide, room⟩
    · next carry =>
      obtain ⟨-, rfl, rfl, room⟩ := eq_of_pack_eq h
      refine ⟨lt_of_le_of_ne ?_ carry, room⟩
      have below : (inUnits num den (unitExponent num den)).1 /
          (inUnits num den (unitExponent num den)).2 < 2 ^ precision := by
        by_contra full
        have full := (le_units_iff hd num _ _).1 (not_lt.1 full)
        push_cast at full
        exact absurd unit.above (not_lt.2 full)
      unfold roundQuotient
      split_ifs <;> omega

end Double

end PropertyMarket
