import PropertyMarket.Proofs.Outcome
import PropertyMarket.Statement.Render

/-!
# What the text of a statement shows

The text of a statement numbers the places of its values and shows nothing else of them. So two
statements have the same text as soon as their pieces only differ in values, and what is known of
their values is known apart from the text.

## Main definitions

* `Piece.erase` — a piece without its value
* `Output.form`, `Condition.form`, `Query.form` — the pieces of a part without their values

## Main results

* `Piece.join_erase` — the text is that of the pieces without their values
* `Query.form_eq` — statements whose parts have the same forms have the same form
* `Query.values_pieces` — the values of a statement are those of its parts, in order

## Implementation notes

A statement is rendered to a list of pieces, each of them a text or a value, and its text is put
together from them by counting the values. Erasing values commutes with every way in which pieces
are put together, and so does collecting them; this is proved once for separators and clauses, and
then for statements as a whole. Nothing here depends on what a condition or a term is.
-/

namespace PropertyMarket

namespace Piece

/-- A piece without its value. Null stands for any value, so that a place of a value stays one. -/
def erase : Piece → Piece
  | text t => text t
  | value _ => value .null

theorem textFrom_erase (pieces : List Piece) (n : Nat) :
    textFrom n (pieces.map erase) = textFrom n pieces := by
  induction pieces generalizing n with
  | nil => rfl
  | cons p rest ih =>
    cases p with
    | text t => rw [List.map_cons, erase, textFrom, textFrom, ih]
    | value v => rw [List.map_cons, erase, textFrom, textFrom, ih]

/-- The text is that of the pieces without their values, since a value only leaves its number in
it. -/
theorem join_erase (pieces : List Piece) : join (pieces.map erase) = join pieces :=
  textFrom_erase pieces 1

theorem join_eq_of_erase {ps qs : List Piece} (h : ps.map erase = qs.map erase) :
    join ps = join qs := by
  rw [← join_erase ps, h, join_erase]

/-! ### Values

The values of pieces are collected from left to right, which is the order in which their places are
numbered. -/

@[simp] theorem values_nil : values [] = [] := rfl

@[simp] theorem values_text_cons (t : String) (rest : List Piece) :
    values (text t :: rest) = values rest := rfl

@[simp] theorem values_value_cons (v : Value) (rest : List Piece) :
    values (value v :: rest) = v :: values rest := rfl

@[simp] theorem values_append (ps qs : List Piece) : values (ps ++ qs) = values ps ++ values qs :=
  List.filterMap_append

@[simp] theorem values_enclosed (left : String) (pieces : List Piece) (right : String) :
    values (enclosed left pieces right) = values pieces := by
  simp [enclosed]

/-! ### Parts with a separator

The clauses of a statement are lists of parts with a separator between them and a keyword in front.
A clause without parts has no pieces at all. -/

theorem separated_cons_cons (s : String) (p q : List Piece) (rest : List (List Piece)) :
    separated s (p :: q :: rest) = p ++ text s :: separated s (q :: rest) := by
  simp [separated]

theorem map_erase_separated (s : String) (parts : List (List Piece)) :
    (separated s parts).map erase = separated s (parts.map (List.map erase)) := by
  induction parts with
  | nil => rfl
  | cons p parts ih =>
    cases parts with
    | nil => simp [separated]
    | cons q rest =>
      rw [separated_cons_cons, List.map_append, List.map_cons, ih]
      simp only [List.map_cons, separated_cons_cons, erase]

theorem values_separated (s : String) (parts : List (List Piece)) :
    values (separated s parts) = parts.flatMap values := by
  induction parts with
  | nil => rfl
  | cons p parts ih =>
    cases parts with
    | nil => simp [separated]
    | cons q rest =>
      rw [separated_cons_cons, values_append, values_text_cons, ih]
      rfl

theorem map_erase_clause (keyword s : String) (parts : List (List Piece)) :
    (clause keyword s parts).map erase = clause keyword s (parts.map (List.map erase)) := by
  cases parts with
  | nil => rfl
  | cons p rest =>
    show erase (text keyword) :: (separated s (p :: rest)).map erase = _
    rw [map_erase_separated]
    rfl

theorem values_clause (keyword s : String) (parts : List (List Piece)) :
    values (clause keyword s parts) = parts.flatMap values := by
  cases parts with
  | nil => rfl
  | cons p rest => exact values_separated s (p :: rest)

end Piece

/-! ### Forms

The form of a part is what its text shows of it. Two statements whose parts agree in their forms,
one by one, cannot be told apart by their texts. -/

/-- The pieces of a condition without their values, which is all that its text depends on. -/
def Condition.form (c : Condition) : List Piece := c.pieces.map Piece.erase

/-- The pieces of what is shown without their values, which is all that its text depends on. -/
def Output.form (o : Output) : List Piece := o.pieces.map Piece.erase

/-- The pieces of a statement without their values. Two statements of one form have one text. -/
def Query.form (q : Statement) : List Piece := q.pieces.map Piece.erase

theorem both_or_neither {α : Type} {m n : Option α} (h : m.isSome = n.isSome) :
    (m = none ∧ n = none) ∨ ∃ a b, m = some a ∧ n = some b := by
  cases m <;> cases n <;> simp_all

/-- Statements whose parts have the same forms have the same form. Of the numbers of a page it only
matters whether they are there. -/
theorem Query.form_eq {q q' : Statement} (outputs : q.outputs.map Output.form =
      q'.outputs.map Output.form) (source : q.source = q'.source)
    (conditions : List.Forall₂ (fun c d => c.form = d.form) q.conditions q'.conditions)
    (groups : q.groups = q'.groups) (sort : q.sort = q'.sort)
    (limit : q.limit.isSome = q'.limit.isSome) (offset : q.offset.isSome = q'.offset.isSome) :
    q.form = q'.form := by
  have conditions : q.conditions.map Condition.form = q'.conditions.map Condition.form := by
    rwa [← List.forall₂_eq_eq_eq, List.forall₂_map_left_iff, List.forall₂_map_right_iff]
  have outputs : q.outputs.map (List.map Piece.erase ∘ Output.pieces) =
    q'.outputs.map (List.map Piece.erase ∘ Output.pieces) := outputs
  have conditions : q.conditions.map (List.map Piece.erase ∘ Condition.pieces) =
    q'.conditions.map (List.map Piece.erase ∘ Condition.pieces) := conditions
  rw [Query.form, Query.form, Query.pieces, Query.pieces, Query.piecesWith, Query.piecesWith]
  simp only [List.map_append, List.map_cons, Piece.map_erase_clause, List.map_map, outputs,
    conditions, source, groups, sort]
  -- What is left are the places of the page, which go by whether they are there.
  obtain ⟨hm, hm'⟩ | ⟨_, _, hm, hm'⟩ := both_or_neither limit <;>
    obtain ⟨hn, hn'⟩ | ⟨_, _, hn, hn'⟩ := both_or_neither offset <;>
      simp [hm, hm', hn, hn', Piece.erase]

/-- The values of a statement are those of its parts, in order: outputs, source, conditions, groups,
sort, then the page. -/
theorem Query.values_pieces (q : Statement) :
    Piece.values q.pieces = q.outputs.flatMap (fun o => Piece.values o.pieces) ++
      Piece.values q.source.pieces ++ q.conditions.flatMap (fun c => Piece.values c.pieces) ++
      q.groups.flatMap (fun t => Piece.values t.pieces) ++
      q.sort.flatMap (fun k => Piece.values k.pieces) ++
      (q.limit.toList ++ q.offset.toList).map Value.int := by
  rw [Query.pieces, Query.piecesWith]
  simp only [Piece.values_append, Piece.values_text_cons, Piece.values_clause, List.flatMap_map,
    List.append_assoc, List.map_append]
  cases q.limit <;> cases q.offset <;> rfl

end PropertyMarket
