/-!
# Rounding a quotient to a whole number

Every rounding in this library, of a binary64 number as of a decimal, is the rounding of one
quotient of natural numbers to the nearest natural number, where a half goes to the even
neighbour.

## Main definitions

* `roundQuotient` — the nearest whole number to `num / den`, a half to even
* `digitCount`, `digitChars`, `digitValue?` — decimal digits of a natural number

## Main results

* `roundQuotient_exact` — a whole quotient is its own rounding
* `two_mul_sub_roundQuotient_le` — the rounding is within half a unit

## Implementation notes

A quotient is given by its two parts and not as a rational, so that the rounding is computed by one
division of natural numbers and the kernel can evaluate it. The two lemmas are what every proof
about rounding starts from: the first one says where nothing is lost, the second one how much is
lost at most. Signs are kept apart from the start, which makes the rounding symmetric about zero.
-/

namespace PropertyMarket

/-- The whole number nearest to `num / den`; a half goes to the even neighbour. In the last case the
remainder is exactly half of the denominator. -/
def roundQuotient (num den : Nat) : Nat :=
  if 2 * (num % den) < den then num / den
  else if den < 2 * (num % den) then num / den + 1
  else num / den + num / den % 2

theorem roundQuotient_exact {den : Nat} (h : 0 < den) (q : Nat) :
    roundQuotient (q * den) den = q := by
  simp [roundQuotient, h]

/-- Twice the distance to the rounded value is at most one unit. -/
theorem two_mul_sub_roundQuotient_le {den : Nat} (h : 0 < den) (num : Nat) :
    2 * num ≤ 2 * (roundQuotient num den * den) + den ∧
      2 * (roundQuotient num den * den) ≤ 2 * num + den := by
  have key := Nat.div_add_mod num den
  have lt := Nat.mod_lt num h
  rw [Nat.mul_comm] at key
  unfold roundQuotient
  split
  · omega
  split
  · rw [Nat.add_mul]; omega
  · rcases Nat.mod_two_eq_zero_or_one (num / den) with e | e <;> rw [e, Nat.add_mul] <;> omega

/-! ### Decimal digits

Digits are characters, most significant first. Writing is the library's own function, and reading is
a fold from the front, so that a proof about reading goes by induction over the digits. -/

/-- The decimal digits of `n`, most significant first; `0` has the one digit `0`. -/
def digitChars (n : Nat) : List Char := Nat.toDigits 10 n

/-- The number of decimal digits of `n`. -/
def digitCount (n : Nat) : Nat := (digitChars n).length

/-- The value of an ASCII digit. -/
def digitValue? (c : Char) : Option Nat :=
  if '0' ≤ c ∧ c ≤ '9' then some (c.toNat - '0'.toNat) else none

/-- The number that a list of ASCII digits denotes; other characters are read as zero. Callers only
hand over digits, so that reading is a total function and no proof has to carry a failure along. -/
def natOfDigits (digits : List Char) : Nat :=
  digits.foldl (fun n c => 10 * n + (digitValue? c).getD 0) 0

end PropertyMarket
