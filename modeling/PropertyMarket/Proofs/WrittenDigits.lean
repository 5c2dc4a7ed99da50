import Mathlib.Algebra.Order.Field.Power
import Mathlib.Tactic.FieldSimp
import Mathlib.Tactic.Ring
import PropertyMarket.Number.Numeral
import PropertyMarket.Number.Decimal
import PropertyMarket.Proofs.PercentText

/-!
# Reading what has been written

A number is written as digits, perhaps with a point among them and an exponent behind them, and a
text of this form is read as the decimal that it denotes. Both sides only ever look at the digits
and at how many of them follow the point, so what is said here of digits is all that is needed to
know what a written number denotes: the digits of a number denote it, zeros in front of them change
nothing, and zeros behind them are powers of ten.

## Main definitions

* `AllDigits` — a list of ASCII digits

## Main results

* `natOfDigits_digitChars` — the digits of a number denote it
* `Decimal.readUnsigned_whole`, `Decimal.readUnsigned_places`, `Decimal.readUnsigned_exponent` — how
  digits, places and exponents are read
* `Decimal.toRat_eq` — the rational that a decimal denotes

## Implementation notes

Reading is described for the forms that are written, and for no others: digits alone, digits with
places, and either of them with an exponent. Each form is split into its parts by where digits end,
so one lemma about spans of digits does the work for all of them.
-/

namespace PropertyMarket

/-! ### What digits denote

Digits denote a natural number, as they do in the standard library, and what is needed of it here
are its laws for putting lists of digits together. -/

/-- A list of ASCII digits. The empty list is one, and is read as zero. -/
def AllDigits (cs : List Char) : Prop := ∀ c ∈ cs, c.isDigit = true

theorem allDigits_digitChars (n : ℕ) : AllDigits (digitChars n) :=
  fun _ => isDigit_of_mem_digitChars

theorem digitChars_ne_nil (n : ℕ) : digitChars n ≠ [] := Nat.toDigits_ne_nil

theorem AllDigits.append {ds es : List Char} (hds : AllDigits ds) (hes : AllDigits es) :
    AllDigits (ds ++ es) :=
  List.forall_mem_append.2 ⟨hds, hes⟩

theorem allDigits_replicate_zero (n : ℕ) : AllDigits (List.replicate n '0') := by
  intro c hc
  obtain rfl := (List.mem_replicate.1 hc).2
  rfl

theorem digitValue?_of_isDigit {c : Char} (h : c.isDigit = true) :
    digitValue? c = some (c.toNat - '0'.toNat) := by
  obtain ⟨low, high⟩ := Char.isDigit_iff_toNat.1 h
  exact if_pos ⟨low, high⟩

/-- On digits this is the reading of the standard library. -/
theorem natOfDigits_eq_ofDigitChars {ds : List Char} (h : AllDigits ds) :
    natOfDigits ds = Nat.ofDigitChars 10 ds 0 := by
  refine List.foldl_ext _ _ _ fun n c hc => ?_
  rw [digitValue?_of_isDigit (h c hc), Option.getD_some]

/-- The digits of a number denote it. -/
@[simp] theorem natOfDigits_digitChars (n : ℕ) : natOfDigits (digitChars n) = n := by
  rw [natOfDigits_eq_ofDigitChars (allDigits_digitChars n)]
  exact Nat.ofDigitChars_ten_toDigits

theorem natOfDigits_append (ds es : List Char) :
    natOfDigits (ds ++ es) = natOfDigits ds * 10 ^ es.length + natOfDigits es := by
  have shifted (n : ℕ) : es.foldl (fun n c => 10 * n + (digitValue? c).getD 0) n =
      n * 10 ^ es.length + natOfDigits es := by
    induction es generalizing n with
    | nil => simp [natOfDigits]
    | cons e es ih =>
      rw [natOfDigits, List.foldl_cons, List.foldl_cons, ih, ih (10 * 0 + _), List.length_cons]
      ring
  rw [natOfDigits, List.foldl_append]
  exact shifted _

@[simp] theorem natOfDigits_replicate_zero (n : ℕ) : natOfDigits (List.replicate n '0') = 0 := by
  rw [natOfDigits_eq_ofDigitChars (allDigits_replicate_zero n), Nat.ofDigitChars_replicate_zero,
    Nat.mul_zero]

/-- Zeros in front change nothing. -/
theorem natOfDigits_zeros_append (n : ℕ) (ds : List Char) :
    natOfDigits (List.replicate n '0' ++ ds) = natOfDigits ds := by
  rw [natOfDigits_append, natOfDigits_replicate_zero, Nat.zero_mul, Nat.zero_add]

/-- Zeros behind are powers of ten. -/
theorem natOfDigits_append_zeros (ds : List Char) (n : ℕ) :
    natOfDigits (ds ++ List.replicate n '0') = natOfDigits ds * 10 ^ n := by
  rw [natOfDigits_append, natOfDigits_replicate_zero, Nat.add_zero, List.length_replicate]

namespace Decimal

/-! ### The parts of a text

A text is taken apart from the left: a sign, digits, perhaps a point and more digits, perhaps an
exponent. A part ends at the first character that is no digit. -/

variable {negative : Bool} {whole places : List Char}

/-- Digits end where something else begins. -/
theorem span_digits {ds : List Char} (digits : AllDigits ds) (rest : List Char)
    (ends : ∀ c ∈ rest.head?, c.isDigit = false) :
    (ds ++ rest).takeWhile Char.isDigit = ds ∧ (ds ++ rest).dropWhile Char.isDigit = rest := by
  rw [List.takeWhile_append_of_pos digits, List.dropWhile_append_of_pos digits]
  cases rest with
  | nil => simp
  | cons c rest =>
    have other := ends c rfl
    simp [other]

theorem readUnsigned_whole (negative : Bool) (digits : AllDigits whole) (nonempty : whole ≠ []) :
    readUnsigned negative whole = some ⟨negative, natOfDigits whole, 0⟩ := by
  obtain ⟨taken, dropped⟩ := span_digits digits [] nofun
  rw [List.append_nil] at taken dropped
  simp [readUnsigned, taken, dropped, nonempty]

theorem readUnsigned_places (negative : Bool) (whole_digits : AllDigits whole)
    (nonempty : whole ≠ []) (places_digits : AllDigits places) :
    readUnsigned negative (whole ++ '.' :: places) =
      some ⟨negative, natOfDigits (whole ++ places), -places.length⟩ := by
  obtain ⟨taken, dropped⟩ := span_digits whole_digits ('.' :: places) (by simp)
  obtain ⟨taken', dropped'⟩ := span_digits places_digits [] nofun
  rw [List.append_nil] at taken' dropped'
  simp [readUnsigned, taken, dropped, taken', dropped', nonempty]

/-- The exponent of a number that is written with one, with its sign. -/
theorem readExponent_signed (e : ℤ) (zeros : ℕ) :
    readExponent ((if e < 0 then '-' else '+') ::
      (List.replicate zeros '0' ++ digitChars e.natAbs)) = some e := by
  have digits := (allDigits_replicate_zero zeros).append (allDigits_digitChars e.natAbs)
  have written : List.replicate zeros '0' ++ digitChars e.natAbs ≠ [] ∧
      (List.replicate zeros '0' ++ digitChars e.natAbs).all Char.isDigit = true :=
    ⟨List.append_ne_nil_of_right_ne_nil _ (digitChars_ne_nil _), List.all_eq_true.2 digits⟩
  have denoted : natOfDigits (List.replicate zeros '0' ++ digitChars e.natAbs) = e.natAbs := by
    rw [natOfDigits_zeros_append, natOfDigits_digitChars]
  split
  · have sign : -(e.natAbs : ℤ) = e := by omega
    simp only [readExponent, if_pos written, denoted]
    exact congrArg some sign
  · have sign : Int.ofNat e.natAbs = e := by
      rw [Int.ofNat_eq_natCast]
      omega
    simp only [readExponent, if_pos written, Option.map_some, denoted, sign]

/-- Digits, with places among them or without, and an exponent. -/
theorem readUnsigned_exponent (negative : Bool) {fraction tail : List Char} {e : ℤ}
    (whole_digits : AllDigits whole) (nonempty : whole ≠ []) (places_digits : AllDigits places)
    (parts : fraction = '.' :: places ∨ fraction = [] ∧ places = [])
    (exponent : readExponent tail = some e) :
    readUnsigned negative (whole ++ (fraction ++ 'e' :: tail)) =
      some ⟨negative, natOfDigits (whole ++ places), e - places.length⟩ := by
  obtain rfl | ⟨rfl, rfl⟩ := parts
  · obtain ⟨taken, dropped⟩ :=
      span_digits whole_digits ('.' :: (places ++ 'e' :: tail)) (by simp)
    obtain ⟨taken', dropped'⟩ := span_digits places_digits ('e' :: tail) (by simp)
    simp [readUnsigned, taken, dropped, taken', dropped', nonempty, exponent]
  · obtain ⟨taken, dropped⟩ := span_digits whole_digits ('e' :: tail) (by simp)
    simp [readUnsigned, taken, dropped, nonempty, exponent]

/-- A text of digits is read without a sign, and behind a minus with one. What follows the first
digit does not matter for that. -/
theorem ofText?_signed {cs : List Char} (first : ∃ c rest, cs = c :: rest ∧ c.isDigit = true) :
    ofText? (String.ofList ((if negative then ['-'] else []) ++ cs)) =
      readUnsigned negative cs := by
  obtain ⟨c, rest, rfl, digit⟩ := first
  cases negative with
  | true => simp [ofText?]
  | false =>
    have minus : c ≠ '-' := by
      rintro rfl
      nomatch digit
    have plus : c ≠ '+' := by
      rintro rfl
      nomatch digit
    simp [ofText?, minus, plus]

/-! ### What is denoted

Once its parts are known, a decimal denotes its coefficient times a power of ten, with its sign. -/

/-- The rational that a decimal denotes. -/
theorem toRat_eq (x : Decimal) :
    x.toRat = (if x.negative then -1 else 1) * (x.coefficient * 10 ^ x.exponent) := by
  have power : (10 : ℚ) ^ x.exponent = 10 ^ x.exponent.toNat / 10 ^ (-x.exponent).toNat := by
    obtain ⟨n, h | h⟩ := x.exponent.eq_nat_or_neg <;> simp [h]
  rw [toRat, quotient, Rat.mkRat_eq_div, power, signed]
  cases x.negative <;> simp <;> ring

end Decimal

end PropertyMarket
