import PropertyMarket.Proofs.Overflow
import PropertyMarket.Proofs.Strictness

/-!
# How sure a classification is

The confidence of a classification comes from a reply that is not trusted. Whatever is given for it
is converted to a binary64 number and clamped to the unit interval, and what is no number counts as
zero. Two values escape that. NaN is neither below zero nor above one, so it is left as it is, and
an integer that is too large for binary64 fails before anything is clamped.

## Main definitions

* `Value.Overflows`, `Value.DenotesNaN` — the two kinds of values that escape
* `Classification.InUnit` — a confidence is within the unit interval

## Main results

* `Classification.inUnit_clamp_iff` — everything but NaN is clamped
* `Assistant.classify_outcome` — what becomes of a reply that is an object

## Implementation notes

Clamping is two comparisons: the greater one of the number and zero, and the lesser one of that and
one. With NaN every comparison fails, and both keep the number they were given first, which is NaN.
This is why the theorem about clamping is an equivalence, and why the result about replies has to
name NaN as the only value inside the range of binary64 for which the unit interval is missed.
-/

namespace PropertyMarket

namespace Double

/-! ### Order

Numbers in binary64 are ordered except for NaN, which is neither less than anything nor greater. -/

/-- Of two numbers that are not NaN, one is at most the other. -/
theorem le_of_not_lt {x y : Double} (hx : x ≠ .nan) (hy : y ≠ .nan) (h : lt y x = false) :
    le x y = true := by
  cases x with
  | nan => exact absurd rfl hx
  | infinite s =>
    cases y with
    | nan => exact absurd rfl hy
    | infinite t => cases s <;> cases t <;> first | rfl | nomatch h
    | finite t n f => cases s <;> first | rfl | nomatch h
  | finite s m e =>
    cases y with
    | nan => exact absurd rfl hy
    | infinite t => cases t <;> first | rfl | nomatch h
    | finite t n f =>
      have total (a b : ℤ) (h : (some (compare b a) == some Ordering.lt) = false) :
          (some (compare a b) == some Ordering.lt || some (compare a b) == some Ordering.eq) =
            true := by
        have least : a ≤ b := by simpa [compare_lt_iff_lt] using h
        obtain less | same := least.lt_or_eq
        · simp [compare_lt_iff_lt.2 less]
        · simp [same]
      exact total _ _ h

end Double

/-! ### Confidences

A value is converted before it is clamped. What cannot be converted at all counts as zero, and a
text is converted as if it were a literal, so that a text can stand for NaN as well. -/

/-- An integer that is too large for binary64. The bound is the first integer that would be rounded
beyond the greatest finite number. -/
def Value.Overflows : Value → Prop
  | .int n => Double.overflow ≤ n.natAbs
  | _ => False

/-- NaN, or a text that is converted to it. No other value is read as a confidence that is not a
number. -/
def Value.DenotesNaN : Value → Prop
  | .double x => x = .nan
  | .text s => Numeral.convert? s = some .nan
  | _ => False

namespace Classification

/-- The number is within the unit interval, its ends included. NaN is not, as it is in no order with
them. -/
def InUnit (x : Double) : Prop := Double.le 0 x = true ∧ x.le 1 = true

instance (x : Double) : Decidable (InUnit x) := inferInstanceAs (Decidable (_ ∧ _))

theorem inUnit_zero : InUnit 0 := by decide +kernel

theorem inUnit_one : InUnit 1 := by decide +kernel

/-- A number is clamped to the unit interval unless it is NaN; infinities are clamped as well. -/
theorem inUnit_clamp_iff (x : Double) : InUnit (clamp x) ↔ x ≠ .nan := by
  have one : (1 : Double) ≠ .nan := by decide
  constructor
  · rintro ⟨least, -⟩ rfl
    nomatch least
  · intro number
    unfold clamp
    dsimp only
    by_cases low : x.lt 0 = true
    · rw [if_pos low, if_neg (by decide +kernel)]
      exact inUnit_zero
    · rw [if_neg low]
      by_cases high : Double.lt 1 x = true
      · rw [if_pos high]
        exact inUnit_one
      · rw [if_neg high]
        exact ⟨Double.le_of_not_lt (by decide) number (eq_false_of_ne_true low),
          Double.le_of_not_lt number one (eq_false_of_ne_true high)⟩

/-- A confidence fails if it overflows; otherwise it is within the unit interval unless it is
NaN. -/
theorem confidenceOf_spec (v : Value) :
    (v.Overflows ∧ confidenceOf v = .error .tooLarge) ∨
      (¬v.Overflows ∧ ∃ x, confidenceOf v = .ok x ∧ (InUnit x ↔ ¬v.DenotesNaN)) := by
  cases v with
  | null => exact .inr ⟨id, 0, rfl, iff_of_true inUnit_zero id⟩
  | list items => exact .inr ⟨id, 0, rfl, iff_of_true inUnit_zero id⟩
  | record fields => exact .inr ⟨id, 0, rfl, iff_of_true inUnit_zero id⟩
  | bool b =>
    have number : Double.ofInt (Number.ofFlag b) ≠ .nan := Double.ofQuotient_ne_nan _ _ _
    exact .inr ⟨id, _, rfl, iff_of_true ((inUnit_clamp_iff _).2 number) id⟩
  | decimal d =>
    have number : d.toDouble ≠ .nan := Double.ofDecimal_ne_nan _ _ _
    exact .inr ⟨id, _, rfl, iff_of_true ((inUnit_clamp_iff _).2 number) id⟩
  | double x => exact .inr ⟨id, _, rfl, inUnit_clamp_iff x⟩
  | int n =>
    have converted : ((Value.int n).toScalar : Except Fault Double) =
        ((Double.ofInt? n).elim (.error .tooLarge) .ok : Except _ _).mapError Fault.ofArithmetic :=
      rfl
    have large : Double.ofInt? n = none ↔ (Value.int n).Overflows := Double.ofInt?_eq_none_iff n
    rw [← large, confidenceOf, converted]
    cases rounded : Double.ofInt? n with
    | none => exact .inl ⟨rfl, rfl⟩
    | some x =>
      have number : x ≠ .nan := fun h => Double.ofInt?_ne_nan n (h ▸ rounded)
      exact .inr ⟨nofun, _, rfl, iff_of_true ((inUnit_clamp_iff x).2 number) id⟩
  | text s =>
    refine .inr ⟨id, ?_⟩
    unfold confidenceOf Value.toScalar Value.DenotesNaN
    dsimp only
    cases Numeral.convert? s with
    | none => exact ⟨0, rfl, iff_of_true inUnit_zero nofun⟩
    | some x => exact ⟨clamp x, rfl, (inUnit_clamp_iff x).trans (by simp)⟩

/-- The category is the one that is named, or the unknown one: neither a word that is no category
nor a value that is no text is an error. -/
theorem category_spec (v : Value) (category : Category)
    (h : category = (Vocabulary.ofValue? v).getD .unknown) :
    (∀ k : Category, v = .ofWord k → category = k) ∧
      ((∀ k : Category, v ≠ .ofWord k) → category = .unknown) := by
  subst h
  constructor
  · intro k named
    rw [Vocabulary.ofValue?_eq_some_iff.2 named, Option.getD_some]
  · intro unnamed
    have none_named : (Vocabulary.ofValue? v : Option Category) = none :=
      Option.eq_none_iff_forall_ne_some.2 fun k h => unnamed k (Vocabulary.ofValue?_eq_some_iff.1 h)
    rw [none_named, Option.getD_none]

end Classification

/-- **What becomes of a reply that is an object.** The classification fails exactly if the
confidence is an integer that is too large for binary64. Otherwise its category is the one that is
named, or the unknown one, and its confidence is within the unit interval unless NaN is given. -/
theorem Assistant.classify_outcome (a : Assistant) (question : String) {text : String} {r : Record}
    (replied : a.model ⟨a.name, .classification, question⟩ = .ok (some text))
    (parsed : Json.read text = .ok (.record r)) :
    ((r.getD "confidence").Overflows → (a.classify question).outcome = .error .tooLarge) ∧
    (¬(r.getD "confidence").Overflows → ∃ c, (a.classify question).outcome = .ok c ∧
      (∀ k, r.getD "category" = .ofWord k → c.category = k) ∧
      ((∀ k : Category, r.getD "category" ≠ .ofWord k) → c.category = .unknown) ∧
      (Classification.InUnit c.confidence ↔ ¬(r.getD "confidence").DenotesNaN)) := by
  have classified : (a.classify question).outcome = Classification.ofRecord r := by
    have full : text ≠ "" := by
      rintro rfl
      nomatch parsed
    show (Completion.payload question (a.model ⟨a.name, .classification, question⟩)).bind _ = _
    rw [replied, Completion.payload, if_neg full, parsed]
    rfl
  rw [classified, Classification.ofRecord]
  obtain ⟨large, confidence⟩ | ⟨fits, x, confidence, within⟩ :=
    Classification.confidenceOf_spec (r.getD "confidence")
  · rw [confidence]
    exact ⟨fun _ => rfl, fun fits => absurd large fits⟩
  · rw [confidence]
    obtain ⟨named, unnamed⟩ := Classification.category_spec (r.getD "category") _ rfl
    exact ⟨fun large => absurd large fits, fun _ => ⟨_, rfl, named, unnamed, within⟩⟩

namespace Assistant

/-- A reply that knows the category, and gives NaN for how sure it is. -/
def notANumber : String := "\x7b\"category\": \"query\", \"confidence\": NaN\x7d"

/-- An assistant whose language model always replies that. -/
def unsure : Assistant := ⟨fun _ => .ok (some notANumber), ""⟩

theorem read_notANumber : Json.read notANumber =
    .ok (.record [("category", .text "query"), ("confidence", .double .nan)]) := by
  dsimp only [Json.read, notANumber, String.reduceToList]
  rfl

/-- The category is kept, and the confidence is not within the unit interval: NaN in a reply comes
back as it was given. -/
theorem classify_notANumber : ∃ c, (unsure.classify "").outcome = .ok c ∧ c.category = .query ∧
    ¬Classification.InUnit c.confidence := by
  have replied : unsure.model ⟨unsure.name, .classification, ""⟩ = .ok (some notANumber) := rfl
  obtain ⟨c, classified, named, -, within⟩ :=
    (classify_outcome unsure "" replied read_notANumber).2 id
  exact ⟨c, classified, named .query rfl, mt within.1 (not_not.2 rfl)⟩

end Assistant

end PropertyMarket
