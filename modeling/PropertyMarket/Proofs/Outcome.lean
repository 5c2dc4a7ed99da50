import Mathlib.Data.List.Forall2
import PropertyMarket.Fault

/-!
# Outcomes

An outcome is a value or a failure. Every statement of this library is put together by a sequence
of steps each of which may fail, so what is known of an outcome is known step by step: these are
the lemmas that take a sequence of steps apart, of one run or of two runs side by side.

## Main definitions

* `Outcome.verdict` — whether a step fails, and with what, apart from its value
* `Fault.SameClass` — two failures that are reported as the same class of error
* `Outcome.Agree` — two outcomes that both fail, in the same class, or have related values

## Main results

* `Outcome.bind_eq_ok_iff`, `Outcome.mapM_eq_ok_iff` — a sequence of steps has a value exactly
  when every step has one
* `Outcome.mapM_eq_error_iff` — and otherwise fails at the first step that fails
* `Outcome.Agree.bind`, `Outcome.Agree.mapM` — steps that agree, agree in sequence

## Implementation notes

The lemmas about one run are equivalences or equations and not rules of a logic of programs, because
most of what is proved here runs a computation in both directions: from the inputs to a value that
exists, and from a value back to what the inputs must have been. An `iff` serves both, and a caller
takes it apart with `obtain` and never unfolds the computation itself.

Two runs are related by `Agree` rather than by an equation because they need not fail with the same
error. A refusal names the value that it refuses, and two requests that differ in that value are
refused in the same way with different texts. What has to be the same is the class of the error.
-/

namespace PropertyMarket

namespace Outcome

variable {ε α β : Type}

/-! ### One run

A sequence of steps is a `bind`, a step along a list is a `mapM`, and a step that passes something
on is a `foldlM`. For each of the three there is what it means to succeed, and for `mapM` also what
it means to fail: there the order of the list counts, since only the first failure is seen. -/

@[simp] theorem ok_bind (a : α) (f : α → Except ε β) : (Except.ok a >>= f) = f a := rfl

@[simp] theorem error_bind (e : ε) (f : α → Except ε β) : (Except.error e >>= f) = .error e := rfl

@[simp] theorem pure_eq_ok (a : α) : (pure a : Except ε α) = .ok a := rfl

theorem bind_eq_ok_iff {x : Except ε α} {f : α → Except ε β} {b : β} :
    x >>= f = .ok b ↔ ∃ a, x = .ok a ∧ f a = .ok b := by
  cases x <;> simp

/-- A sequence of steps along a list has a value exactly when every step has one, and then it is
the list of their values in the order of the list. -/
theorem mapM_eq_ok_iff {f : α → Except ε β} : ∀ {xs : List α} {ys : List β},
    xs.mapM f = .ok ys ↔ List.Forall₂ (fun x y => f x = .ok y) xs ys := by
  intro xs
  induction xs with
  | nil =>
    intro ys
    simp [eq_comm]
  | cons x xs ih =>
    intro ys
    rw [List.mapM_cons, bind_eq_ok_iff, List.forall₂_cons_left_iff]
    constructor
    · rintro ⟨y, hy, h⟩
      obtain ⟨rest, hrest, h⟩ := bind_eq_ok_iff.1 h
      exact ⟨y, rest, hy, ih.1 hrest, (Except.ok.inj h).symm⟩
    · rintro ⟨y, rest, hy, hrest, rfl⟩
      exact ⟨y, hy, bind_eq_ok_iff.2 ⟨rest, ih.2 hrest, rfl⟩⟩

/-- The same without the values. -/
theorem exists_mapM_eq_ok_iff {f : α → Except ε β} {xs : List α} :
    (∃ ys, xs.mapM f = .ok ys) ↔ ∀ x ∈ xs, ∃ y, f x = .ok y := by
  induction xs with
  | nil => simp
  | cons x xs ih =>
    rw [List.forall_mem_cons, ← ih]
    constructor
    · rintro ⟨ys, h⟩
      rw [List.mapM_cons] at h
      obtain ⟨y, hy, h⟩ := bind_eq_ok_iff.1 h
      obtain ⟨rest, hrest, -⟩ := bind_eq_ok_iff.1 h
      exact ⟨⟨y, hy⟩, rest, hrest⟩
    · rintro ⟨⟨y, hy⟩, rest, hrest⟩
      exact ⟨y :: rest, by rw [List.mapM_cons, hy, ok_bind, hrest, ok_bind, pure_eq_ok]⟩

/-- Each value of a sequence of steps is the value of a step. -/
theorem exists_of_mem_mapM {f : α → Except ε β} {xs : List α} {ys : List β}
    (h : xs.mapM f = .ok ys) : ∀ y ∈ ys, ∃ x ∈ xs, f x = .ok y := by
  have each := mapM_eq_ok_iff.1 h
  clear h
  induction each with
  | nil => simp
  | cons hx _ ih =>
    intro y hy
    rcases List.mem_cons.1 hy with rfl | hy
    · exact ⟨_, List.mem_cons_self, hx⟩
    · obtain ⟨x, hmem, hx⟩ := ih y hy
      exact ⟨x, List.mem_cons_of_mem _ hmem, hx⟩

/-- A step along a list of which every item succeeds with a known value. -/
theorem mapM_eq_ok_map {f : α → Except ε β} {g : α → β} {xs : List α}
    (h : ∀ x ∈ xs, f x = .ok (g x)) : xs.mapM f = .ok (xs.map g) := by
  rw [mapM_eq_ok_iff, List.forall₂_map_right_iff, List.forall₂_same]
  exact h

/-- Steps along two lists, one after the other. -/
theorem mapM_append_eq_ok {f : α → Except ε β} {xs xs' : List α} {ys ys' : List β}
    (h : xs.mapM f = .ok ys) (h' : xs'.mapM f = .ok ys') :
    (xs ++ xs').mapM f = .ok (ys ++ ys') := by
  rw [List.mapM_append, h, ok_bind, h', ok_bind, pure_eq_ok]

/-- Steps along the lists of some items. -/
theorem mapM_flatMap_eq_ok {γ : Type} {f : α → Except ε β} {items : List γ} {g : γ → List α}
    {ys : γ → List β} (h : ∀ x ∈ items, (g x).mapM f = .ok (ys x)) :
    (items.flatMap g).mapM f = .ok (items.flatMap ys) := by
  induction items with
  | nil => rfl
  | cons x items ih =>
    rw [List.flatMap_cons, List.flatMap_cons]
    exact mapM_append_eq_ok (h x List.mem_cons_self)
      (ih fun y hy => h y (List.mem_cons_of_mem x hy))

/-- Along the same items in another order, the values are the same in another order. -/
theorem exists_mapM_of_perm {f : α → Except ε β} {xs xs' : List α} {ys : List β}
    (perm : xs'.Perm xs) (h : xs.mapM f = .ok ys) : ∃ ys', xs'.mapM f = .ok ys' ∧ ys'.Perm ys := by
  obtain ⟨ys', found⟩ := exists_mapM_eq_ok_iff.2 fun x hx =>
    exists_mapM_eq_ok_iff.1 ⟨ys, h⟩ x (perm.subset hx)
  refine ⟨ys', found, ?_⟩
  have values (xs : List α) (ys : List β) (h : xs.mapM f = .ok ys) :
      ys.map some = xs.map fun x => (f x).toOption := by
    have each := mapM_eq_ok_iff.1 h
    clear h
    induction each with
    | nil => rfl
    | cons hx _ ih => rw [List.map_cons, List.map_cons, ih, hx]; rfl
  have mapped : (ys'.map some).Perm (ys.map some) := by
    rw [values _ _ found, values _ _ h]
    exact perm.map _
  simpa using mapped.filterMap id

/-- Steps that are taken one after the other, as long as what they pass on is of one form. -/
theorem foldlM_eq_ok_wrap {γ : Type} {f : β → α → Except ε β} {wrap : γ → β} {g : γ → α → γ}
    {xs : List α} (h : ∀ x ∈ xs, ∀ c, f (wrap c) x = .ok (wrap (g c x))) (c : γ) :
    xs.foldlM f (wrap c) = .ok (wrap (xs.foldl g c)) := by
  induction xs generalizing c with
  | nil => rfl
  | cons x xs ih =>
    rw [List.foldlM_cons, h x List.mem_cons_self, ok_bind, List.foldl_cons]
    exact ih (fun y hy => h y (List.mem_cons_of_mem x hy)) _

/-- Steps that are taken one after the other, each of which succeeds with a known value. -/
theorem foldlM_eq_ok_foldl {f : β → α → Except ε β} {g : β → α → β} {xs : List α} (b : β)
    (h : ∀ x ∈ xs, ∀ b, f b x = .ok (g b x)) : xs.foldlM f b = .ok (xs.foldl g b) :=
  foldlM_eq_ok_wrap h b

/-- A sequence of steps along a list fails at the first step that does: all steps before it have
values, and what would come after it does not matter. -/
theorem mapM_eq_error_iff {f : α → Except ε β} {xs : List α} {e : ε} :
    xs.mapM f = .error e ↔ ∃ before x after, xs = before ++ x :: after ∧
      (∀ y ∈ before, ∃ b, f y = .ok b) ∧ f x = .error e := by
  induction xs with
  | nil => simp
  | cons x xs ih =>
    rw [List.mapM_cons]
    cases hx : f x with
    | error e' =>
      rw [error_bind]
      constructor
      · intro same
        obtain rfl := Except.error.inj same
        exact ⟨[], x, xs, rfl, by simp, hx⟩
      · rintro ⟨before, y, after, split, earlier, hy⟩
        cases before with
        | nil =>
          obtain ⟨rfl, -⟩ := List.cons.inj split
          exact congrArg Except.error (Except.error.inj (hx.symm.trans hy))
        | cons z before =>
          obtain ⟨rfl, -⟩ := List.cons.inj split
          obtain ⟨b, hb⟩ := earlier x List.mem_cons_self
          nomatch hx.symm.trans hb
    | ok b =>
      have rest : (do return b :: (← xs.mapM f)) = .error e ↔ xs.mapM f = .error e := by
        cases xs.mapM f <;> simp
      rw [ok_bind, rest, ih]
      constructor
      · rintro ⟨before, y, after, rfl, earlier, hy⟩
        exact ⟨x :: before, y, after, rfl, List.forall_mem_cons.2 ⟨⟨b, hx⟩, earlier⟩, hy⟩
      · rintro ⟨before, y, after, split, earlier, hy⟩
        cases before with
        | nil =>
          obtain ⟨rfl, -⟩ := List.cons.inj split
          nomatch hx.symm.trans hy
        | cons z before =>
          obtain ⟨rfl, rfl⟩ := List.cons.inj split
          exact ⟨before, y, after, rfl, (List.forall_mem_cons.1 earlier).2, hy⟩

/-- If all steps along a list that fail do so alike, so does the whole if one of them fails. -/
theorem mapM_eq_error_of_exists {f : α → Except ε β} {e : ε} {xs : List α}
    (alike : ∀ x ∈ xs, ∀ e', f x = .error e' → e' = e) (fails : ∃ x ∈ xs, f x = .error e) :
    xs.mapM f = .error e := by
  cases found : xs.mapM f with
  | ok ys =>
    obtain ⟨x, hx, hfail⟩ := fails
    obtain ⟨y, hy⟩ := exists_mapM_eq_ok_iff.1 ⟨ys, found⟩ x hx
    rw [hfail] at hy
    nomatch hy
  | error e' =>
    obtain ⟨before, x, after, rfl, -, hx⟩ := mapM_eq_error_iff.1 found
    rw [alike x (by simp) e' hx]

/-- Steps that may leave out what they are applied to are steps along what is kept. -/
theorem mapM_filterMap_id {f : α → Except ε (Option β)} {g : α → Except ε β} {keep : α → Bool}
    {xs : List α} (each : ∀ x ∈ xs, f x = if keep x then (g x).map some else .ok none) :
    (do return (← xs.mapM f).filterMap id) = (xs.filter keep).mapM g := by
  induction xs with
  | nil => rfl
  | cons x xs ih =>
    obtain ⟨first, rest⟩ := List.forall_mem_cons.1 each
    rw [List.mapM_cons, first]
    by_cases kept : keep x = true
    · rw [List.filter_cons_of_pos kept, List.mapM_cons, if_pos kept, ← ih rest]
      cases g x with
      | error e => rfl
      | ok y => cases xs.mapM f <;> rfl
    · rw [List.filter_cons_of_neg kept, if_neg kept, ← ih rest]
      cases xs.mapM f <;> rfl

/-! ### Whether a step fails

Much of what is claimed of a statement is only about whether there is one, and with which error it
is refused otherwise. The verdict forgets the value and keeps that, so that steps which compute
different things can be compared as long as they fail alike. -/

/-- Whether a step fails, and with what, apart from its value. Two steps with one verdict either
both succeed, with whatever values, or fail with the same error. -/
def verdict (x : Except ε α) : Except ε Unit := x.map fun _ => ()

theorem verdict_eq_ok_iff {x : Except ε α} : verdict x = .ok () ↔ ∃ a, x = .ok a := by
  cases x <;> simp [verdict, Except.map]

theorem verdict_eq_error_iff {x : Except ε α} {e : ε} : verdict x = .error e ↔ x = .error e := by
  cases x <;> simp [verdict, Except.map]

theorem verdict_map (f : α → β) (x : Except ε α) : verdict (x.map f) = verdict x := by
  cases x <;> rfl

/-- What follows a step only shows in the verdict if the step succeeds. -/
theorem verdict_bind {x : Except ε α} {f : α → Except ε β} {y : Except ε Unit}
    (h : ∀ a, verdict (f a) = y) : verdict (x >>= f) = (verdict x >>= fun _ => y) := by
  cases x with
  | error e => rfl
  | ok a => exact h a

theorem verdict_mapM_cons (f : α → Except ε β) (x : α) (xs : List α) :
    verdict ((x :: xs).mapM f) = (verdict (f x) >>= fun _ => verdict (xs.mapM f)) := by
  rw [List.mapM_cons]
  exact verdict_bind fun b => verdict_map (b :: ·) (xs.mapM f)

theorem verdict_mapM_append (f : α → Except ε β) (xs ys : List α) :
    verdict ((xs ++ ys).mapM f) = (verdict (xs.mapM f) >>= fun _ => verdict (ys.mapM f)) := by
  rw [List.mapM_append]
  exact verdict_bind fun _ => verdict_map _ (ys.mapM f)

theorem verdict_mapM_congr {γ : Type} {f : α → Except ε β} {g : α → Except ε γ} {xs : List α}
    (h : ∀ x ∈ xs, verdict (f x) = verdict (g x)) :
    verdict (xs.mapM f) = verdict (xs.mapM g) := by
  induction xs with
  | nil => rfl
  | cons x xs ih =>
    rw [verdict_mapM_cons, verdict_mapM_cons, h x List.mem_cons_self,
      ih fun y hy => h y (List.mem_cons_of_mem x hy)]

end Outcome

/-! ### Two runs

Two runs of one computation on inputs that only differ in places it does not branch on take the same
path. Agreement is the invariant of that: it holds of the inputs' readings, each step preserves it,
and at the end it says that both runs fail alike or have results that differ only in those
places. -/

/-- Two failures that are reported as the same class of error: refusals of a query by their kind,
any other failure by what it is. -/
inductive Fault.SameClass : Fault → Fault → Prop
  | refl (f : Fault) : SameClass f f
  | query {e e' : QueryError} (h : e.report.kind = e'.report.kind) :
    SameClass (.query e) (.query e')

theorem Fault.SameClass.symm {f g : Fault} (h : f.SameClass g) : g.SameClass f := by
  cases h with
  | refl => exact .refl f
  | query h => exact .query h.symm

theorem Fault.SameClass.trans {f g k : Fault} (hfg : f.SameClass g) (hgk : g.SameClass k) :
    f.SameClass k := by
  cases hfg with
  | refl => exact hgk
  | query h =>
    cases hgk with
    | refl => exact .query h
    | query h' => exact .query (h.trans h')

namespace Outcome

variable {α β γ δ : Type}

/-- Two outcomes that both fail, in the same class, or have related values. An outcome with a value
never agrees with a failure, whatever the relation is. -/
def Agree (R : α → β → Prop) : Except Fault α → Except Fault β → Prop
  | .ok a, .ok b => R a b
  | .error f, .error g => f.SameClass g
  | _, _ => False

namespace Agree

theorem refl {R : α → α → Prop} (hR : ∀ a, R a a) (x : Except Fault α) : Agree R x x := by
  cases x with
  | ok a => exact hR a
  | error f => exact Fault.SameClass.refl f

theorem symm {R : α → β → Prop} {S : β → α → Prop} (hRS : ∀ a b, R a b → S b a)
    {x : Except Fault α} {y : Except Fault β} (h : Agree R x y) : Agree S y x := by
  cases x <;> cases y
  · exact Fault.SameClass.symm h
  · exact h
  · exact h
  · exact hRS _ _ h

theorem trans {R : α → β → Prop} {S : β → γ → Prop} {T : α → γ → Prop}
    (hRST : ∀ a b c, R a b → S b c → T a c) {x : Except Fault α} {y : Except Fault β}
    {z : Except Fault γ} (hxy : Agree R x y) (hyz : Agree S y z) : Agree T x z := by
  cases x <;> cases y <;> cases z <;> try first | exact hxy.elim | exact hyz.elim
  · exact Fault.SameClass.trans hxy hyz
  · exact hRST _ _ _ hxy hyz

/-- Steps that agree, agree in sequence. The second steps need only agree on values that the first
steps can have together, which is what the relation records. -/
theorem bind {R : α → β → Prop} {S : γ → δ → Prop} {x : Except Fault α} {y : Except Fault β}
    {f : α → Except Fault γ} {g : β → Except Fault δ} (h : Agree R x y)
    (hfg : ∀ a b, R a b → Agree S (f a) (g b)) : Agree S (x >>= f) (y >>= g) := by
  cases x <;> cases y
  · exact h
  · exact h.elim
  · exact h.elim
  · exact hfg _ _ h

/-- After one and the same step, what follows has to agree. -/
theorem bind_same {R : β → γ → Prop} {x : Except Fault α} {f : α → Except Fault β}
    {g : α → Except Fault γ} (hfg : ∀ a, Agree R (f a) (g a)) : Agree R (x >>= f) (x >>= g) := by
  cases x with
  | ok a => exact hfg a
  | error e => exact Fault.SameClass.refl e

/-- Lists whose items agree step by step, agree as a whole. -/
theorem mapM {R : α → β → Prop} {S : γ → δ → Prop} {f : α → Except Fault γ}
    {g : β → Except Fault δ} (hfg : ∀ a b, R a b → Agree S (f a) (g b)) {xs : List α}
    {ys : List β} (h : List.Forall₂ R xs ys) :
    Agree (List.Forall₂ S) (xs.mapM f) (ys.mapM g) := by
  induction h with
  | nil => exact .nil
  | cons hxy _ ih =>
    rw [List.mapM_cons, List.mapM_cons]
    refine (hfg _ _ hxy).bind fun c d hcd => ?_
    exact ih.bind fun cs ds hcds => .cons hcd hcds

end Agree

end Outcome

end PropertyMarket
