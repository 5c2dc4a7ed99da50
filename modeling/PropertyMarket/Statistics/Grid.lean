import PropertyMarket.Fault

/-!
# Blocks of nested values

Values that are computed with may be nested in lists. They form a block if, at each level, either
all of them are lists of one length or none of them is a list.

## Main definitions

* `Grid` — the lengths of a block, level by level, and its cells in order
* `Grid.ofItems`, `Grid.ofPairs` — the block of some items, or of pairs, or why they are none

## Main results

* `Grid.ofItems_eq` — items that are no lists are the cells of a block of one level
* `Grid.ofPairs_eq` — pairs of such values form a block of two columns

## Implementation notes

The levels are looked at one after the other, each as a whole, so what is reported of values that
form no block is the shape of the levels above the first one that is mixed.
-/

namespace PropertyMarket

/-- A block of values: how long the lists are at each level, and what they hold. The cells are as
many as the lengths multiplied. -/
structure Grid where
  /-- The length of the lists at each level, the outermost first. -/
  shape : List Nat
  /-- The values inside all lists, in order. -/
  cells : List Value
  deriving Repr

namespace Grid

/-- The most levels that are looked into. Below them a list is a failure. -/
def maxLevels : Nat := 32

/-- The items of a list; anything else has none. -/
def children : Value → List Value
  | .list items => items
  | _ => []

/-- Is the value a list of a length? -/
def isListOf (n : Nat) : Value → Bool
  | .list items => items.length == n
  | _ => false

/-- Is the value a list? -/
def isList : Value → Bool
  | .list _ => true
  | _ => false

/-- The length of the lists at a level, if it holds nothing but lists of one length. Without a list
at its front there is none. -/
def commonLength? : List Value → Option Nat
  | .list items :: rest => if rest.all (isListOf items.length) then some items.length else none
  | _ => none

/-- The block below some levels of a shape, which is given with the innermost of them first. A level
that is all lists of one length is opened, one without lists holds the cells, and a mixed one is
reported with the shape so far. -/
def ofLevel (shape : List Nat) (level : List Value) : Nat → Except Fault Grid
  | 0 =>
    if level.any isList then .error (.unusable (.overNested maxLevels))
    else .ok ⟨shape.reverse, level⟩
  | levels + 1 =>
    match commonLength? level with
    | some n => ofLevel (n :: shape) (level.flatMap children) levels
    | none =>
      if level.any isList then .error (.unusable (.ragged shape.reverse))
      else .ok ⟨shape.reverse, level⟩

/-- The block of some items: the list of them is the outermost level. -/
def ofItems (items : List Value) : Except Fault Grid := ofLevel [] [.list items] maxLevels

theorem commonLength?_eq_none {level : List Value} (h : level.any isList = false) :
    commonLength? level = none := by
  match level with
  | [] => rfl
  | .list _ :: _ => simp [isList] at h
  | .null :: _ | .bool _ :: _ | .int _ :: _ | .double _ :: _ | .decimal _ :: _ | .text _ :: _
  | .record _ :: _ => rfl

theorem ofLevel_eq {level : List Value} (h : level.any isList = false) (shape : List Nat)
    (levels : Nat) : ofLevel shape level levels = .ok ⟨shape.reverse, level⟩ := by
  cases levels <;> simp [ofLevel, h, commonLength?_eq_none h]

theorem ofLevel_list (shape : List Nat) (items : List Value) (levels : Nat) :
    ofLevel shape [.list items] (levels + 1) = ofLevel (items.length :: shape) items levels := by
  simp [ofLevel, commonLength?, children]

/-- Items that are no lists are the cells of a block of one level. -/
theorem ofItems_eq {items : List Value} (h : items.any isList = false) :
    ofItems items = .ok ⟨[items.length], items⟩ :=
  (ofLevel_list [] items 31).trans (ofLevel_eq h [items.length] 31)

/-! ### Pairs

Points are pairs, and their block is that of the lists of two that they are. If no coordinate is a
list, the block has two columns, and nothing of the generality above is left in it. -/

/-- A pair as a list of two values. -/
def ofPair (p : Value × Value) : Value := .list [p.1, p.2]

/-- The block of some pairs. -/
def ofPairs (pairs : List (Value × Value)) : Except Fault Grid := ofItems (pairs.map ofPair)

/-- Pairs of values that are no lists form a block of two columns. -/
theorem ofPairs_eq {p : Value × Value} {pairs : List (Value × Value)}
    (h : ∀ q ∈ p :: pairs, isList q.1 = false ∧ isList q.2 = false) :
    ofPairs (p :: pairs) =
      .ok ⟨[pairs.length + 1, 2], (p :: pairs).flatMap fun q => [q.1, q.2]⟩ := by
  have children_map : ((p :: pairs).map ofPair).flatMap children =
      (p :: pairs).flatMap fun q => [q.1, q.2] := by
    simp [List.flatMap_map, ofPair, children]
  have flat : ((p :: pairs).flatMap fun q => [q.1, q.2]).any isList = false := by
    rw [List.any_eq_false]
    intro v hv
    obtain ⟨q, hq, hv⟩ := List.mem_flatMap.1 hv
    rcases List.mem_cons.1 hv with rfl | hv
    · simp [(h q hq).1]
    · simp [List.mem_singleton.1 hv, (h q hq).2]
  have length : commonLength? ((p :: pairs).map ofPair) = some 2 := by
    simp [commonLength?, ofPair, isListOf]
  rw [ofPairs, ofItems, maxLevels, ofLevel_list, ofLevel, length]
  simp only [children_map]
  rw [ofLevel_eq flat]
  simp

end Grid

end PropertyMarket
