import PropertyMarket.Request.Arguments

/-!
# What a reading says of its value

A value that has been read has passed every check on the way, and each of its parts has been read
by the reading of the part. These are the lemmas that take a reading apart again, from the value
that it has to the readings that it is joined of.

## Main results

* `Key.withDefault_eq_valid`, `Key.required_eq_valid` — the value of a field
* `Checked.exists_of_mem_each` — the items of a list

## Implementation notes

Readings collect their issues, so a reading of two parts can fail in either of them or in both. In
the other direction there is nothing to distinguish: a reading that has a value has one for each of
its parts. So each combinator has one inversion lemma, and the readings of requests are taken apart
by applying these in the order in which the reading is written.
-/

namespace PropertyMarket

namespace Checked

variable {α β : Type}

theorem map_eq_valid {f : α → β} {x : Checked α} {b : β} (h : f <$> x = valid b) :
    ∃ a, x = valid a ∧ f a = b := by
  cases x with
  | valid a => exact ⟨a, rfl, by simpa using h⟩
  | invalid issues => nomatch h

theorem andThen_eq_valid {x : Checked α} {f : α → Checked β} {b : β}
    (h : x.andThen f = valid b) : ∃ a, x = valid a ∧ f a = valid b := by
  cases x with
  | valid a => exact ⟨a, rfl, h⟩
  | invalid issues => nomatch h

theorem under_eq_valid {step : Issue.Step} {x : Checked α} {a : α}
    (h : x.under step = valid a) : x = valid a := by
  cases x with
  | valid b => exact h
  | invalid issues => nomatch h

theorem orFault_eq_ok {model : String} {x : Checked α} {a : α} (h : x.orFault model = .ok a) :
    x = valid a := by
  cases x with
  | valid b => rw [Except.ok.inj h]
  | invalid issues => nomatch h

theorem exists_of_mem_eachFrom {read : α → Checked β} {first : Nat} {xs : List α} {ys : List β}
    (h : eachFrom read first xs = valid ys) : ∀ y ∈ ys, ∃ x ∈ xs, read x = valid y := by
  induction xs generalizing first ys with
  | nil =>
    obtain rfl : [] = ys := by injection h
    simp
  | cons x xs ih =>
    obtain ⟨_, rest, hfirst, hrest, rfl⟩ := seq_eq_valid.1 h
    obtain ⟨y, hy, rfl⟩ := map_eq_valid hfirst
    intro z hz
    obtain rfl | hz := List.mem_cons.1 hz
    · exact ⟨x, List.mem_cons_self, under_eq_valid hy⟩
    · obtain ⟨x', hx', read_eq⟩ := ih hrest z hz
      exact ⟨x', List.mem_cons_of_mem _ hx', read_eq⟩

/-- Each item of a list that has been read is the reading of an item. -/
theorem exists_of_mem_each {read : α → Checked β} {xs : List α} {ys : List β}
    (h : each read xs = valid ys) : ∀ y ∈ ys, ∃ x ∈ xs, read x = valid y :=
  exists_of_mem_eachFrom h

end Checked

/-! ### Fields and lists

A field that is not given has its default, which is never read, so a fact about readings has to be
known of the default separately. -/

section

variable {α : Type} {read : Value → Checked α}

/-- The value of a field is its default, or the reading of what is given. -/
theorem Key.withDefault_eq_valid {key : Key} {standard a : α} {r : Record}
    (h : key.withDefault standard read r = .valid a) :
    a = standard ∨ ∃ v, read v = .valid a := by
  unfold withDefault at h
  cases given : key.find? r with
  | none =>
    rw [given] at h
    exact .inl (by injection h with h; exact h.symm)
  | some v =>
    rw [given] at h
    exact .inr ⟨v, Checked.under_eq_valid h⟩

/-- The value of a field that has to be given is the reading of what is given. -/
theorem Key.required_eq_valid {key : Key} {a : α} {r : Record}
    (h : key.required read r = .valid a) : ∃ v, read v = .valid a := by
  unfold required at h
  cases given : key.find? r with
  | none =>
    rw [given] at h
    nomatch h
  | some v =>
    rw [given] at h
    exact ⟨v, Checked.under_eq_valid h⟩

theorem Reader.nullable_eq_some {v : Value} {a : α} (h : nullable read v = .valid (some a)) :
    read v = .valid a := by
  have some_of {x : Checked α} (h : some <$> x = .valid (some a)) : x = .valid a := by
    obtain ⟨b, hb, same⟩ := Checked.map_eq_valid h
    rw [hb, Option.some.inj same]
  cases v with
  | null => simp [nullable] at h
  | _ => exact some_of h

theorem Reader.exists_of_mem_nonEmpty {v : Value} {items : List α}
    (h : nonEmpty read v = .valid items) : ∀ a ∈ items, ∃ v, read v = .valid a := by
  obtain ⟨listed, hlist, h⟩ := Checked.andThen_eq_valid h
  obtain rfl : listed = items := by
    split at h
    · nomatch h
    · injection h
  cases v with
  | list values =>
    intro a ha
    obtain ⟨v, -, hv⟩ := Checked.exists_of_mem_each hlist a ha
    exact ⟨v, hv⟩
  | _ => nomatch hlist

end

end PropertyMarket
