import Mathlib.Data.List.DropRight
import PropertyMarket.Legend.Label
import PropertyMarket.Proofs.Outcome
import PropertyMarket.Proofs.Overflow
import PropertyMarket.Proofs.Rounding
import PropertyMarket.Proofs.WrittenDigits

/-!
# What the numbers in labels denote

A number in the label of a bucket is written for reading: whole numbers in groups of three digits,
others to three places of which zeros at the end are dropped. What is written is the number to the
nearest thousandth, whatever its size and its sign: the zeros that are dropped all stand behind the
point, and the commas that are put in can be taken out again.

The two ways of writing are one. A whole number written to three places has zeros only there, so
nothing is left of them, and what is said of places holds for all numbers.

## Main definitions

* `Numeral.withoutCommas` — a text without its commas
* `Numeral.IsGrouped` — digits with commas every three digits from the right
* `Numeral.Written` — a text is a rational to the nearest thousandth, in groups of digits
* `Number.InRange` — an integer or a binary64 number that is within the range of binary64

## Main results

* `Numeral.isGrouped_grouped` — where the commas of a number stand
* `Numeral.toList_thousandths` — what is left of three places
* `Number.label_written` — a number in a label is the number to the nearest thousandth

## Implementation notes

A label is taken apart from the right, because that is where the strips work and where groups of
digits are counted from. So the commas are described by positions in the reversed text, and the
strips by what they leave in front of the last character that is not dropped.

That a text denotes a number is said with `Decimal.ofText?`, which reads decimals elsewhere in the
project. So the results do not rest on an account of numerals that is made for them.
-/

namespace PropertyMarket

namespace Numeral

/-! ### Commas

Digits are grouped from the right, and a comma stands in front of each three of them unless it would
be the first character. In the reversed text that is every fourth character, and this is how the
position of a comma is stated. -/

/-- A text without its commas, which stand for nothing in a number. -/
def withoutCommas (text : String) : String := String.ofList (text.toList.filter (· ≠ ','))

theorem filter_of_allDigits {ds : List Char} (h : AllDigits ds) : ds.filter (· ≠ ',') = ds := by
  refine List.filter_eq_self.2 fun c hc => ?_
  have digit := h c hc
  simp only [decide_eq_true_eq]
  rintro rfl
  nomatch digit

/-- Digits with commas every three digits from the right. The first character is never a comma, and
without the commas the digits are all there, in their order. -/
structure IsGrouped (digits cs : List Char) : Prop where
  digits : cs.filter (· ≠ ',') = digits
  commas : ∀ i c, cs.reverse[i]? = some c → (c = ',' ↔ i % 4 = 3)
  first : cs.head? ≠ some ','

theorem filter_groupReversed {cs : List Char} (h : AllDigits cs) :
    (groupReversed cs).filter (· ≠ ',') = cs := by
  induction cs using groupReversed.induct with
  | case1 a b c d rest ih =>
    have digit {x : Char} (hx : x ∈ a :: b :: c :: d :: rest) : x ≠ ',' := by
      rintro rfl
      nomatch h _ hx
    have others : AllDigits (d :: rest) := fun x hx => h x (by simp_all)
    have first : a ≠ ',' ∧ b ≠ ',' ∧ c ≠ ',' :=
      ⟨digit (by simp), digit (by simp), digit (by simp)⟩
    rw [groupReversed, List.filter_cons_of_pos (by simp [first]),
      List.filter_cons_of_pos (by simp [first]), List.filter_cons_of_pos (by simp [first]),
      List.filter_cons_of_neg (by simp), ih others]
  | case2 cs short =>
    rw [groupReversed]
    · exact filter_of_allDigits h
    · exact short

theorem comma_groupReversed {cs : List Char} (h : AllDigits cs) {i : ℕ} {c : Char}
    (hc : (groupReversed cs)[i]? = some c) : c = ',' ↔ i % 4 = 3 := by
  induction cs using groupReversed.induct generalizing i with
  | case1 x y z d rest ih =>
    have digit {u : Char} (hu : u ∈ x :: y :: z :: d :: rest) : u ≠ ',' := by
      rintro rfl
      nomatch h _ hu
    have others : AllDigits (d :: rest) := fun u hu => h u (by simp_all)
    rw [groupReversed] at hc
    match i with
    | 0 | 1 | 2 =>
      obtain rfl := Option.some.inj hc
      exact iff_of_false (digit (by simp)) (by decide)
    | 3 =>
      obtain rfl := Option.some.inj hc
      exact iff_of_true rfl rfl
    | i + 4 =>
      rw [Nat.add_mod_right]
      exact ih others hc
  | case2 cs short =>
    rw [groupReversed] at hc
    · have few : cs.length ≤ 3 := by
        rcases cs with _ | ⟨a, _ | ⟨b, _ | ⟨c, _ | ⟨d, rest⟩⟩⟩⟩
        case cons.cons.cons.cons => exact absurd rfl (short a b c d rest)
        all_goals simp
      obtain ⟨less, rfl⟩ := List.getElem?_eq_some_iff.1 hc
      refine iff_of_false (fun comma => ?_) (by omega)
      have digit := h _ (List.getElem_mem less)
      rw [comma] at digit
      nomatch digit
    · exact short

theorem getLast?_groupReversed {cs : List Char} (h : AllDigits cs) :
    (groupReversed cs).getLast? = cs.getLast? := by
  induction cs using groupReversed.induct with
  | case1 a b c d rest ih =>
    have others : AllDigits (d :: rest) := fun u hu => h u (by simp_all)
    have nonempty : groupReversed (d :: rest) ≠ [] := by
      intro empty
      have := filter_groupReversed others
      rw [empty] at this
      nomatch this
    rw [groupReversed]
    obtain ⟨e, es, more⟩ := List.exists_cons_of_ne_nil nonempty
    rw [more] at ih ⊢
    simpa [List.getLast?_cons_cons] using ih others
  | case2 cs short =>
    rw [groupReversed]
    exact short

/-- Where the commas of a number stand. It holds of every natural number, including those of less
than four digits, which have none. -/
theorem isGrouped_grouped (n : ℕ) : IsGrouped (digitChars n) (grouped n) := by
  have digits : AllDigits (digitChars n).reverse :=
    fun c hc => allDigits_digitChars n c (List.mem_reverse.1 hc)
  refine ⟨?_, fun i c hc => ?_, ?_⟩
  · rw [grouped, List.filter_reverse, filter_groupReversed digits, List.reverse_reverse]
  · rw [grouped, List.reverse_reverse] at hc
    exact comma_groupReversed digits hc
  · rw [grouped, List.head?_reverse, getLast?_groupReversed digits, List.getLast?_reverse]
    intro comma
    nomatch allDigits_digitChars n ',' (List.mem_of_mem_head? comma)

/-! ### Places

Three places are written as digits with zeros in front of them. Dropping zeros at their end leaves
all of what they denote, and leaves nothing exactly if they denote zero. -/

theorem allDigits_fixedPlaces (n : ℕ) : AllDigits (fixedPlaces n) :=
  (allDigits_replicate_zero _).append (allDigits_digitChars n)

theorem natOfDigits_fixedPlaces (n : ℕ) : natOfDigits (fixedPlaces n) = n := by
  rw [fixedPlaces, padLeft, natOfDigits_zeros_append, natOfDigits_digitChars]

theorem length_fixedPlaces {n : ℕ} (h : n < 1000) : (fixedPlaces n).length = 3 := by
  have few : (digitChars n).length ≤ 3 := (digitCount_le_iff (by decide)).2 h
  rw [fixedPlaces, padLeft, List.length_append, List.length_replicate]
  omega

/-- Dropping a character at the end is the library's dropping from the right. -/
theorem dropEnd_eq (c : Char) (cs : List Char) : dropEnd c cs = cs.rdropWhile (· = c) := rfl

theorem isPrefix_dropEnd (c : Char) (cs : List Char) : dropEnd c cs <+: cs :=
  List.rdropWhile_prefix _ _

/-- Nothing is dropped from what ends in something else. -/
theorem dropEnd_eq_self {c : Char} {cs : List Char} (h : c ∉ cs.getLast?) : dropEnd c cs = cs :=
  List.rdropWhile_eq_self_iff.2 fun nonempty same => by
    rw [List.getLast?_eq_some_getLast nonempty, of_decide_eq_true same] at h
    exact h rfl

/-- Only the given character is dropped. -/
theorem exists_dropEnd_append (c : Char) (cs : List Char) :
    ∃ n, dropEnd c cs ++ List.replicate n c = cs := by
  refine ⟨(cs.rtakeWhile (· = c)).length, ?_⟩
  have dropped : cs.rtakeWhile (· = c) = List.replicate (cs.rtakeWhile (· = c)).length c :=
    List.eq_replicate_of_mem fun d hd => by simpa using List.mem_rtakeWhile_imp hd
  rw [← dropped, dropEnd_eq, List.rdropWhile_append_rtakeWhile]

theorem getLast?_dropEnd (c : Char) (cs : List Char) : (dropEnd c cs).getLast? ≠ some c := by
  intro last
  have nonempty : dropEnd c cs ≠ [] := by
    intro nothing
    rw [nothing] at last
    nomatch last
  rw [List.getLast?_eq_some_getLast nonempty] at last
  exact List.rdropWhile_last_not (· = c) cs nonempty (decide_eq_true (Option.some.inj last))

/-- Nothing is dropped in front of another character. -/
theorem dropEnd_append_cons {c d : Char} (ne : d ≠ c) (front ds : List Char) :
    dropEnd c (front ++ d :: ds) = front ++ d :: dropEnd c ds := by
  have reversed : (front ++ d :: ds).reverse = ds.reverse ++ d :: front.reverse := by simp
  rw [dropEnd, reversed, List.dropWhile_append]
  split
  · next nothing =>
    rw [List.isEmpty_iff] at nothing
    simp [dropEnd, nothing, ne]
  · simp [dropEnd]

/-- Digits with a point in front of them; no digits without one. This is how places are written once
the strips are done. -/
def behindPoint (ds : List Char) : List Char := if ds = [] then [] else '.' :: ds

theorem dropEnd_fixedPlaces_eq_nil_iff {n : ℕ} : dropEnd '0' (fixedPlaces n) = [] ↔ n = 0 := by
  constructor
  · intro nothing
    obtain ⟨zeros, all⟩ := exists_dropEnd_append '0' (fixedPlaces n)
    rw [nothing, List.nil_append] at all
    rw [← natOfDigits_fixedPlaces n, ← all, natOfDigits_replicate_zero]
  · rintro rfl
    decide

/-! ### Strips

Zeros and then points are dropped from the end of the whole text. The two stop at each other: a zero
of the whole part stands in front of the point, and a point is in no digits. So what is left is the
whole part and, behind a point, the places without the zeros at their end; if no place is left, the
point goes too. -/

theorem mem_grouped {n : ℕ} {c : Char} (h : c ∈ grouped n) : c = ',' ∨ c.isDigit = true := by
  by_cases comma : c = ','
  · exact .inl comma
  · have kept : c ∈ (grouped n).filter (· ≠ ',') := List.mem_filter.2 ⟨h, by simpa using comma⟩
    rw [(isGrouped_grouped n).digits] at kept
    exact .inr (isDigit_of_mem_digitChars kept)

theorem point_notMem_digits {ds : List Char} (h : AllDigits ds) : '.' ∉ ds :=
  fun point => absurd (h _ point) (by decide)

/-- There is no point in a sign and groups of digits. -/
theorem point_notMem_whole (negative : Prop) [Decidable negative] (n : ℕ) :
    '.' ∉ (if negative then ['-'] else []) ++ grouped n := by
  rw [List.mem_append]
  rintro (sign | digit)
  · split at sign <;> simp at sign
  · simpa using mem_grouped digit

/-- A point at the end is dropped with the zeros, and one in front of other digits is kept. -/
theorem dropEnd_point {front ds : List Char} (no_point : '.' ∉ front) (digits : AllDigits ds) :
    dropEnd '.' (front ++ '.' :: ds) = front ++ behindPoint ds := by
  rw [behindPoint]
  split
  · next nothing =>
    rw [nothing, List.append_nil, dropEnd_eq, List.rdropWhile_concat, if_pos (by simp)]
    exact dropEnd_eq_self fun last => no_point (List.mem_of_mem_getLast? last)
  · next some_places =>
    refine dropEnd_eq_self fun last => point_notMem_digits digits ?_
    obtain ⟨d, rest, more⟩ := List.exists_cons_of_ne_nil some_places
    rw [more] at last ⊢
    have last : '.' ∈ (d :: rest).getLast? := by
      simpa [List.getLast?_append, List.getLast?_cons_cons] using last
    exact List.mem_of_mem_getLast? last

/-- **What is left of three places.** No zero of the whole part is dropped. -/
theorem toList_thousandths (num : ℤ) (den : ℕ) : (thousandths num den).toList =
    (if num < 0 then ['-'] else []) ++ grouped (roundQuotient (num.natAbs * 1000) den / 1000) ++
      behindPoint (dropEnd '0' (fixedPlaces (roundQuotient (num.natAbs * 1000) den % 1000))) := by
  rw [thousandths, String.toList_ofList]
  unfold fixedThousandths
  dsimp only
  rw [dropEnd_append_cons (by decide), dropEnd_point (point_notMem_whole _ _)]
  exact fun c hc => allDigits_fixedPlaces _ c ((isPrefix_dropEnd _ _).subset hc)

/-! ### What is denoted

A text that has been written is read again without its commas. What is read is a decimal, whose
value is compared with the number that was to be written. -/

/-- A text is a rational to the nearest thousandth, of two the even one: a minus if there is one,
the whole part in groups of digits, and behind a point the places that do not end in a zero. -/
structure Written (x : ℚ) (text : String) (thousandths : ℤ) (whole places : List Char) : Prop where
  near : |x * 1000 - thousandths| ≤ 1 / 2
  tie : |x * 1000 - thousandths| = 1 / 2 → Even thousandths
  parts : text.toList = (if x < 0 then ['-'] else []) ++ whole ++ behindPoint places
  grouped : IsGrouped (digitChars (thousandths.natAbs / 1000)) whole
  places_digits : AllDigits places
  places_few : places.length ≤ 3
  places_last : places.getLast? ≠ some '0'
  /-- Without its commas, the text denotes the thousandths. -/
  denotes : ∃ d, Decimal.ofText? (withoutCommas text) = some d ∧ d.toRat = thousandths / 1000
  /-- A whole number keeps all its digits, and no others are written. -/
  integral : ∀ n : ℤ, x = n → places = [] ∧ whole.filter (· ≠ ',') = digitChars n.natAbs

/-- The places that are kept denote as many thousandths. Each zero that is dropped makes the numeral
ten times less, and its unit ten times greater. -/
theorem natOfDigits_append_dropEnd (ds : List Char) {n : ℕ} (h : n < 1000) :
    natOfDigits (ds ++ dropEnd '0' (fixedPlaces n)) * 1000 =
      (natOfDigits ds * 1000 + n) * 10 ^ (dropEnd '0' (fixedPlaces n)).length := by
  obtain ⟨zeros, all⟩ := exists_dropEnd_append '0' (fixedPlaces n)
  have value := natOfDigits_fixedPlaces n
  have width := length_fixedPlaces h
  generalize dropEnd '0' (fixedPlaces n) = kept at all ⊢
  rw [← all] at value width
  rw [natOfDigits_append_zeros] at value
  rw [List.length_append, List.length_replicate] at width
  have thousand : 1000 = 10 ^ kept.length * 10 ^ zeros := by rw [← Nat.pow_add, width]
  calc natOfDigits (ds ++ kept) * 1000
      = natOfDigits ds * 1000 * 10 ^ kept.length + natOfDigits kept * 1000 := by
        rw [natOfDigits_append]
        ring
    _ = (natOfDigits ds * 1000 + n) * 10 ^ kept.length := by
        rw [← value]
        nth_rewrite 2 [thousand]
        ring

theorem readUnsigned_behindPoint {negative : Bool} {whole places : List Char}
    (whole_digits : AllDigits whole) (nonempty : whole ≠ []) (places_digits : AllDigits places) :
    Decimal.readUnsigned negative (whole ++ behindPoint places) =
      some ⟨negative, natOfDigits (whole ++ places), -places.length⟩ := by
  rw [behindPoint]
  split
  · next nothing =>
    rw [nothing, List.append_nil, Decimal.readUnsigned_whole _ whole_digits nonempty]
    rfl
  · exact Decimal.readUnsigned_places _ whole_digits nonempty places_digits

/-- The text of a number without its commas: neither the sign nor the point nor the places have any,
so only the whole part is changed. -/
theorem withoutCommas_ofList (negative : Bool) (n : ℕ) {ds : List Char} (digits : AllDigits ds) :
    withoutCommas
        (String.ofList ((if negative then ['-'] else []) ++ grouped n ++ behindPoint ds)) =
      String.ofList ((if negative then ['-'] else []) ++ (digitChars n ++ behindPoint ds)) := by
  have sign : (if negative then ['-'] else []).filter (· ≠ ',') =
      if negative then ['-'] else [] := by
    cases negative <;> rfl
  have behind : (behindPoint ds).filter (· ≠ ',') = behindPoint ds := by
    rw [behindPoint]
    split
    · rfl
    · rw [List.filter_cons_of_pos (by simp), filter_of_allDigits digits]
  rw [withoutCommas, String.toList_ofList, List.filter_append, List.filter_append, sign, behind,
    (isGrouped_grouped n).digits, List.append_assoc]

/-- Without its commas, what is written denotes the rounded number of thousandths. -/
theorem ofText?_thousandths (num : ℤ) (den : ℕ) :
    ∃ d, Decimal.ofText? (withoutCommas (thousandths num den)) = some d ∧ d.toRat =
      (if num < 0 then -1 else 1) * (roundQuotient (num.natAbs * 1000) den : ℚ) / 1000 := by
  obtain ⟨units, hunits⟩ : ∃ units, units = roundQuotient (num.natAbs * 1000) den := ⟨_, rfl⟩
  rw [← hunits]
  have places_digits : AllDigits (dropEnd '0' (fixedPlaces (units % 1000))) := fun c hc =>
    allDigits_fixedPlaces _ c ((isPrefix_dropEnd _ _).subset hc)
  have value := natOfDigits_append_dropEnd (digitChars (units / 1000))
    (Nat.mod_lt units (by decide : 0 < 1000))
  rw [natOfDigits_digitChars, Nat.div_add_mod'] at value
  have text : thousandths num den = String.ofList ((if decide (num < 0) then ['-'] else []) ++
      grouped (units / 1000) ++ behindPoint (dropEnd '0' (fixedPlaces (units % 1000)))) := by
    rw [← String.ofList_toList (s := thousandths num den), toList_thousandths, ← hunits]
    simp only [decide_eq_true_eq]
  generalize dropEnd '0' (fixedPlaces (units % 1000)) = ds at text places_digits value
  obtain ⟨c, rest, first⟩ := List.exists_cons_of_ne_nil (digitChars_ne_nil (units / 1000))
  have digits := allDigits_digitChars (units / 1000)
  refine ⟨⟨decide (num < 0), natOfDigits (digitChars (units / 1000) ++ ds), -ds.length⟩, ?_, ?_⟩
  · rw [text, withoutCommas_ofList _ _ places_digits, Decimal.ofText?_signed,
      readUnsigned_behindPoint digits (digitChars_ne_nil _) places_digits]
    exact ⟨c, rest ++ behindPoint ds, by rw [first, List.cons_append],
      digits c (first ▸ List.mem_cons_self)⟩
  · have value : (natOfDigits (digitChars (units / 1000) ++ ds) : ℚ) * 1000 =
        units * 10 ^ ds.length := by exact_mod_cast value
    have coefficient : (natOfDigits (digitChars (units / 1000) ++ ds) : ℚ) *
        10 ^ (-(ds.length : ℤ)) = units / 1000 := by
      rw [zpow_neg, zpow_natCast, ← div_eq_mul_inv, div_eq_div_iff (by positivity) (by norm_num),
        value]
    rw [Decimal.toRat_eq, coefficient, mul_div_assoc]
    simp only [decide_eq_true_eq]

/-- A whole number has a thousand thousandths for each unit; nothing is rounded. -/
theorem thousandths_of_whole {num n : ℤ} {den : ℕ} (h : 0 < den) (whole : (num : ℚ) / den = n) :
    roundQuotient (num.natAbs * 1000) den = n.natAbs * 1000 := by
  have hden : (den : ℚ) ≠ 0 := by exact_mod_cast h.ne'
  have product : num = n * den := by exact_mod_cast (div_eq_iff hden).1 whole
  have exact : num.natAbs * 1000 = n.natAbs * 1000 * den := by
    rw [product, Int.natAbs_mul, Int.natAbs_natCast]
    ring
  rw [exact, roundQuotient_exact h]

/-- A rational is written to the nearest thousandth. -/
theorem written_thousandths (num : ℤ) {den : ℕ} (h : 0 < den) :
    ∃ k whole places, Written (num / den) (thousandths num den) k whole places := by
  have hden : (0 : ℚ) < den := by exact_mod_cast h
  have negative : (num : ℚ) / den < 0 ↔ num < 0 := by
    rw [div_lt_iff₀ hden, zero_mul, Int.cast_lt_zero]
  obtain ⟨units, hunits⟩ : ∃ units, units = roundQuotient (num.natAbs * 1000) den := ⟨_, rfl⟩
  obtain ⟨k, hk⟩ : ∃ k : ℤ, k = if num < 0 then -(units : ℤ) else units := ⟨_, rfl⟩
  have size : k.natAbs = units := by
    rw [hk]
    split <;> omega
  have off : |(num : ℚ) / den * 1000 - k| = |((num.natAbs * 1000 : ℕ) : ℚ) / den - units| := by
    rw [hk, abs_sub_signed, Nat.cast_mul, Nat.cast_ofNat, div_mul_eq_mul_div]
  obtain ⟨near, tie⟩ := (roundQuotient_eq_iff h).1 hunits.symm
  have text : (thousandths num den).toList = (if (num : ℚ) / den < 0 then ['-'] else []) ++
      grouped (units / 1000) ++ behindPoint (dropEnd '0' (fixedPlaces (units % 1000))) := by
    rw [toList_thousandths, ← hunits]
    simp only [negative]
  have prefixed : dropEnd '0' (fixedPlaces (units % 1000)) <+: fixedPlaces (units % 1000) :=
    isPrefix_dropEnd _ _
  have places_digits : AllDigits (dropEnd '0' (fixedPlaces (units % 1000))) :=
    fun c hc => allDigits_fixedPlaces _ c (prefixed.subset hc)
  refine ⟨k, grouped (units / 1000), dropEnd '0' (fixedPlaces (units % 1000)), ?_⟩
  exact {
    near := off ▸ near
    tie := fun half => by
      have even := tie (off ▸ half)
      rwa [← size, Int.natAbs_even] at even
    parts := text
    grouped := size ▸ isGrouped_grouped (units / 1000)
    places_digits := places_digits
    places_few := prefixed.length_le.trans_eq (length_fixedPlaces (Nat.mod_lt _ (by decide)))
    places_last := getLast?_dropEnd _ _
    denotes := by
      obtain ⟨d, read, value⟩ := ofText?_thousandths num den
      refine ⟨d, read, ?_⟩
      rw [value, ← hunits, hk]
      split <;> push_cast <;> ring
    integral := fun n whole => by
      have thousand : units = n.natAbs * 1000 := hunits.trans (thousandths_of_whole h whole)
      have below : units % 1000 = 0 := by omega
      have above : units / 1000 = n.natAbs := by omega
      rw [below, above]
      exact ⟨dropEnd_fixedPlaces_eq_nil_iff.2 rfl, (isGrouped_grouped _).digits⟩ }

end Numeral

/-! ### Numbers in labels

A number counts as whole if the nearest binary64 number is, and is then written without any places.
All others are written to three places. As both ways agree on whole numbers, one result covers all
of them. -/

namespace Number

/-- An integer or a binary64 number that is within the range of binary64. Integers outside of it
cannot be compared with the rounded number, and have no label. -/
def InRange : Number → Prop
  | .flag _ => True
  | .int n => n.natAbs < Double.overflow
  | .double x => x.isFinite = true
  | .decimal _ => False

/-- A whole number is written to three places as it is written without them: its places are all
zeros, and the strips drop them with the point. -/
theorem thousandths_mul (n : ℤ) {den : ℕ} (h : 0 < den) :
    Numeral.thousandths (n * den) den = Numeral.groupedInt n := by
  have units : roundQuotient ((n * den).natAbs * 1000) den = n.natAbs * 1000 := by
    rw [Int.natAbs_mul, Int.natAbs_natCast, Nat.mul_right_comm, roundQuotient_exact h]
  have positive : (0 : ℤ) < den := by exact_mod_cast h
  have sign : n * den < 0 ↔ n < 0 :=
    ⟨fun below => neg_of_mul_neg_left below positive.le, (mul_neg_of_neg_of_pos · positive)⟩
  have nothing : Numeral.behindPoint (Numeral.dropEnd '0' (Numeral.fixedPlaces 0)) = [] := by decide
  rw [← String.ofList_toList (s := Numeral.thousandths (n * den) den), Numeral.toList_thousandths,
    Numeral.groupedInt, units, Nat.mul_mod_left, Nat.mul_div_cancel _ (by decide), nothing,
    List.append_nil]
  simp only [sign]

/-- A number that counts as whole because it is can as well be written to three places. -/
theorem label_eq_of_quotient {x : Number} {nearest : Double} {num : ℤ} {den : ℕ} (h : 0 < den)
    (denoted : x.quotient? = some (num, den)) (rounded : x.toDouble = .ok nearest)
    (whole : ∀ n, nearest.toInt? = some n → (den : ℤ) ∣ num) :
    x.label = .ok (Numeral.thousandths num den) := by
  unfold label
  rw [rounded, denoted, show (Except.ok nearest : Except Failure Double).mapError
    Fault.ofArithmetic = .ok nearest from rfl, Outcome.ok_bind]
  cases counts : nearest.toInt? with
  | none => rfl
  | some n =>
    obtain ⟨k, rfl⟩ := whole n counts
    have nonzero : (den : ℤ) ≠ 0 := by exact_mod_cast h.ne'
    rw [mul_comm, thousandths_mul k h]
    dsimp only
    rw [Int.mul_tdiv_cancel _ nonzero]
    rfl

/-- Both ways of writing a number in range are the writing to three places. -/
theorem label_eq_thousandths {x : Number} (h : x.InRange) : ∃ num den, 0 < den ∧
    x.quotient? = some (num, den) ∧ x.label = .ok (Numeral.thousandths num den) := by
  cases x with
  | flag b =>
    exact ⟨ofFlag b, 1, Nat.one_pos, rfl, label_eq_of_quotient Nat.one_pos rfl rfl fun _ _ =>
      one_dvd _⟩
  | int n =>
    obtain ⟨nearest, rounded⟩ : ∃ nearest, Double.ofInt? n = some nearest :=
      Option.ne_none_iff_exists'.1 fun large =>
        absurd ((Double.ofInt?_eq_none_iff n).1 large) (not_le.2 h)
    have converted : (int n).toDouble = .ok nearest := by
      rw [toDouble, rounded]
      rfl
    exact ⟨n, 1, Nat.one_pos, rfl, label_eq_of_quotient Nat.one_pos rfl converted fun _ _ =>
      one_dvd _⟩
  | double x =>
    cases x with
    | finite s m e =>
      have positive : 0 < Nat.pow 2 (-e).toNat := Nat.pow_pos (by decide)
      exact ⟨_, _, positive, rfl, label_eq_of_quotient positive rfl rfl fun _ whole =>
        (Double.toInt?_eq_some rfl whole).1⟩
    | _ => nomatch h
  | decimal d => exact h.elim

/-- **A number in a label is the number to the nearest thousandth.** Its text, without the commas,
denotes that; its places do not end in a zero, and a whole number has none; and the commas stand
every three digits from the right. -/
theorem label_written {x : Number} (h : x.InRange) : ∃ v text k whole places,
    x.toRat? = some v ∧ x.label = .ok text ∧ Numeral.Written v text k whole places := by
  obtain ⟨num, den, positive, denoted, label⟩ := label_eq_thousandths h
  obtain ⟨k, whole, places, written⟩ := Numeral.written_thousandths num positive
  refine ⟨num / den, _, k, whole, places, ?_, label, written⟩
  rw [toRat?, denoted, Option.map_some, Rat.mkRat_eq_div]

/-- The binary64 number nearest to 999.9996, which is less than a thousand and is written as one. -/
def almostThousand : Double := Double.ofDecimal false 9999996 (-4)

/-- Rounding may carry into a new group of digits, of which no zero is dropped. -/
theorem label_written_almostThousand : (double almostThousand).InRange ∧ ∃ v k whole places,
    (double almostThousand).toRat? = some v ∧ Numeral.Written v "1,000" k whole places := by
  have finite : (double almostThousand).InRange := by
    unfold InRange
    decide +kernel
  obtain ⟨v, text, k, whole, places, denoted, label, written⟩ := label_written finite
  have shown : (double almostThousand).label.toOption = some "1,000" := by decide +kernel
  rw [label] at shown
  obtain rfl : text = "1,000" := Option.some.inj shown
  exact ⟨finite, v, k, whole, places, denoted, written⟩

end Number

end PropertyMarket
