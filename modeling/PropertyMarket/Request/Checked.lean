import PropertyMarket.Fault

/-!
# Checked values

A reading of a request either has a value or lists everything that is wrong. Readings of several
parts are joined so that the issues of all of them are kept, in the order of the parts.

## Main definitions

* `Checked` — a value, or the issues that stand in its way
* `Checked.under` — the reading of a part, its issues seen from the whole
* `Checked.each` — the readings of all items of a list

## Main results

* `Checked.seq_eq_valid` — joined readings have a value only if each has one

## Implementation notes

`Checked` is an applicative functor and deliberately no monad: with a bind that goes on only after a
success, the issues of later parts would be lost, and joining would no longer agree with it. Where a
check needs a value that has been read, `Checked.andThen` is used by name.
-/

namespace PropertyMarket

/-- A value, or the issues that stand in its way, in the order of the parts. -/
inductive Checked (α : Type) where
  | valid (value : α)
  | invalid (issues : List Issue)
  deriving Repr

namespace Checked

variable {α β : Type}

/-- Applies a function to the value; issues stay as they are. -/
def map (f : α → β) : Checked α → Checked β
  | valid a => valid (f a)
  | invalid issues => invalid issues

/-- Joins two readings; the issues of both are kept, those of the first one in front. -/
def seq (f : Checked (α → β)) (x : Checked α) : Checked β :=
  match f, x with
  | valid f, valid a => valid (f a)
  | valid _, invalid issues => invalid issues
  | invalid issues, valid _ => invalid issues
  | invalid issues, invalid more => invalid (issues ++ more)

instance : Applicative Checked where
  pure := valid
  map f x := map f x
  seq f x := seq f (x ())

/-- Goes on with the value; the issues of the second reading arise only if there are none of the
first. This is how a check follows a reading. -/
def andThen (x : Checked α) (f : α → Checked β) : Checked β :=
  match x with
  | valid a => f a
  | invalid issues => invalid issues

/-- One issue, at the value itself. The place is empty until it is seen from outside. -/
def refuse (cause : Issue.Cause) : Checked α := invalid [⟨[], cause⟩]

/-- The reading of a part, its issues seen from the whole. -/
def under (step : Issue.Step) : Checked α → Checked α
  | valid a => valid a
  | invalid issues => invalid (issues.map (Issue.under step))

/-- The readings of items, numbered from a number on, each with its number for a step. -/
def eachFrom (read : α → Checked β) (first : Nat) : List α → Checked (List β)
  | [] => valid []
  | x :: xs =>
    List.cons <$> (read x).under (.index first) <*> eachFrom read (first + 1) xs

/-- The readings of all items of a list, of which every one is looked at. -/
def each (read : α → Checked β) (items : List α) : Checked (List β) := eachFrom read 0 items

/-- The readings of all named values, each with its name for a step. The names are kept as they
are. -/
def eachNamed (read : α → Checked β) : List (String × α) → Checked (List (String × β))
  | [] => valid []
  | (name, x) :: rest =>
    (fun y ys => (name, y) :: ys) <$> (read x).under (.key name) <*> eachNamed read rest

/-- The value, or the fault of the model that does not fit, with all its issues. -/
def orFault (model : String) : Checked α → Except Fault α
  | valid a => .ok a
  | invalid issues => .error (.invalid model issues)

/-- The issues. -/
def issues : Checked α → List Issue
  | valid _ => []
  | invalid issues => issues

theorem seq_eq_valid {f : Checked (α → β)} {x : Checked α} {b : β} :
    f <*> x = valid b ↔ ∃ g a, f = valid g ∧ x = valid a ∧ g a = b := by
  cases f <;> cases x <;> simp [Seq.seq, seq]

@[simp] theorem map_valid (f : α → β) (a : α) : f <$> valid a = valid (f a) := rfl

@[simp] theorem seq_valid (f : α → β) (a : α) : valid f <*> valid a = valid (f a) := rfl

@[simp] theorem under_valid (step : Issue.Step) (a : α) : (valid a).under step = valid a := rfl

end Checked

end PropertyMarket
