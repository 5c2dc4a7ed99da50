import PropertyMarket.Statement

/-!
# Statements as text

A statement is written as pieces: text, and places for bound values. The places are numbered
from left to right, and their values are listed in the same order; no value is ever part of the
text.

## Main definitions

* `Piece` — text, or the place of a bound value
* `Term.pieces`, `Condition.pieces`, `Statement.pieces` — the pieces of each part
* `Piece.text`, `Piece.values` — the numbered text and the values

## Implementation notes

The text is made in two steps, pieces and then numbers, because the number of a place depends on
everything that stands before it while the pieces of a part depend on the part alone. So all but the
last step is compositional: the pieces of a clause are the pieces of its parts with text between
them, and the values are listed in the order of the places whatever the parts are.
-/

namespace PropertyMarket

/-! ### Pieces

A list of pieces is a text with holes. Its text numbers the holes, its values are what goes into
them, and the two always agree in number, since both are read off the one list. -/

/-- Text, or the place of a bound value. -/
inductive Piece where
  | text (text : String)
  | value (value : Value)

namespace Piece

/-- The text, with places numbered from a number on. The numbering is the only state, and it counts
places and not values: two places with one value have two numbers. -/
def textFrom : Nat → List Piece → String
  | _, [] => ""
  | n, text t :: rest => t ++ textFrom n rest
  | n, value _ :: rest => "$" ++ intText n ++ textFrom (n + 1) rest

/-- The text, with places numbered from 1 on. -/
def join (pieces : List Piece) : String := textFrom 1 pieces

/-- The values of the places, from left to right, which is the order of their numbers. -/
def values (pieces : List Piece) : List Value :=
  pieces.filterMap fun
    | text _ => none
    | value v => some v

/-- The place of a value; null needs none, and is written out. -/
def bound : Value → Piece
  | .null => text "NULL"
  | v => value v

/-- Parts with a separator between them, none in front and none behind. -/
def separated (separator : String) (parts : List (List Piece)) : List Piece :=
  (parts.intersperse [text separator]).flatten

end Piece

/-! ### Names

Names come from tables and from labels. A label can hold capitals, as those of a request's fields
do, and then needs quotes; a quote inside of it is doubled. No name is ever a text of a request. -/

/-- May the character stand in a name without quotes? -/
def isPlainNameChar (c : Char) : Bool :=
  ('a' ≤ c && c ≤ 'z') || c.isDigit || c == '_' || c == '$'

/-- A name, in quotes unless it is plain: lower-case letters, digits, `_` and `$`, and no digit at
the front. -/
def nameText (name : String) : String :=
  let cs := name.toList
  if cs ≠ [] ∧ cs.all isPlainNameChar ∧ ¬(cs.head?.any Char.isDigit) then name
  else String.ofList ('"' :: (cs.flatMap (fun c => if c = '"' then ['"', '"'] else [c]) ++ ['"']))

/-- A column of a source. -/
def columnText (source name : String) : String := nameText source ++ "." ++ nameText name

/-! ### Terms and conditions

An operation inside another one stands in brackets unless it binds more tightly, so the text can be
read back in one way only. Casts and functions bring brackets of their own. -/

/-- The sign of a comparison. -/
def Comparator.sign : Comparator → String
  | .eq => "="
  | .ne => "!="
  | .gt => ">"
  | .ge => ">="
  | .lt => "<"
  | .le => "<="

/-- The name of an aggregate. -/
def Aggregate.name : Aggregate → String
  | .count => "count"
  | .sum => "sum"
  | .avg => "avg"
  | .min => "min"
  | .max => "max"

namespace Arithmetic

/-- The sign of an operation. -/
def sign : Arithmetic → String
  | .add => "+"
  | .sub => "-"
  | .mul => "*"
  | .div => "/"

/-- How tightly an operation binds. -/
def rank : Arithmetic → Nat
  | .add | .sub => 1
  | .mul | .div => 2

end Arithmetic

/-- A term stands in brackets inside an operation unless it binds more tightly, on both sides
alike. -/
def Term.needsBrackets (outer : Arithmetic) : Term → Bool
  | .arithmetic inner _ _ => inner.rank ≤ outer.rank
  | _ => false

/-- Pieces between two texts. -/
def Piece.enclosed (left : String) (pieces : List Piece) (right : String) : List Piece :=
  .text left :: (pieces ++ [.text right])

/-- The reference system of the outlines. -/
def referenceSystem : Int := 4326

mutual

/-- The pieces of a term, its parts from left to right. The store divides whole numbers as exact
decimals. -/
def Term.pieces : Term → List Piece
  | .column source name => [.text (columnText source name)]
  | .bound value => [.value value]
  | .truth value => [.text (if value then "true" else "false")]
  | .null => [.text "NULL"]
  | .arithmetic operator left right =>
    let inner (t : Term) (pieces : List Piece) : List Piece :=
      if t.needsBrackets operator then Piece.enclosed "(" pieces ")" else pieces
    inner left left.pieces ++ .text (" " ++ operator.sign ++ " ") :: inner right right.pieces
  | .cast term type => Piece.enclosed "CAST(" term.pieces (" AS " ++ type.name ++ ")")
  | .round term places =>
    .text "round(" :: (term.pieces ++ [.text ", ", .value (.int places), .text ")"])
  | .coalesce term value =>
    .text "coalesce(" :: (term.pieces ++ [.text ", ", .value value, .text ")"])
  | .aggregate function argument => Piece.enclosed (function.name ++ "(") argument.pieces ")"
  | .countRows => [.text "count(*)"]
  | .percentile fraction argument =>
    .text "percentile_cont(" :: Piece.bound fraction ::
      Piece.enclosed ") WITHIN GROUP (ORDER BY " argument.pieces ")"
  | .slope y x =>
    .text "regr_slope(" :: (y.pieces ++ .text ", " :: (x.pieces ++ [.text ")"]))
  | .choice condition yes no =>
    .text "CASE WHEN (" :: (condition.pieces ++ .text ") THEN " :: (yes.pieces ++
      match no with
      | some term => .text " ELSE " :: (term.pieces ++ [.text " END"])
      | none => [.text " END"]))

/-- The pieces of a condition, its terms before its values. -/
def Condition.pieces : Condition → List Piece
  | .compare comparator left right =>
    left.pieces ++ .text (" " ++ comparator.sign ++ " ") :: right.pieces
  | .between term low high =>
    term.pieces ++ [.text " BETWEEN ", .value low, .text " AND ", .value high]
  | .oneOf term values =>
    let items := Piece.separated ", " (values.map fun v => [.value v])
    term.pieces ++ Piece.enclosed " IN (" items ")"
  | .matches term pattern => term.pieces ++ [.text " ILIKE ", .value (.text pattern)]
  | .isNull term => term.pieces ++ [.text " IS NULL"]
  | .isNotNull term => term.pieces ++ [.text " IS NOT NULL"]
  | .either first second => first.pieces ++ .text " OR " :: second.pieces
  | .intersects shape west south east north =>
    .text "ST_Intersects(" :: (shape.pieces ++ .text ", ST_MakeEnvelope(" ::
      (Piece.separated ", " ([.double west, .double south, .double east, .double north,
        .int referenceSystem].map fun v => [.value v]) ++ [.text "))"]))

end

/-! ### Selections

A selection is its clauses one after the other, each under its keyword and left out if it has no
parts. The source is written by a function that is handed in, which is how a selection inside a join
is written by the same definition. -/

/-- Conditions that hold together. -/
def Condition.conjunction (conditions : List Condition) : List Piece :=
  Piece.separated " AND " (conditions.map Condition.pieces)

/-- What is shown. -/
def Output.pieces (output : Output) : List Piece :=
  output.term.pieces ++ match output.label with
    | some label => [.text (" AS " ++ nameText label)]
    | none => []

/-- A key of a sort. -/
def SortKey.pieces (key : SortKey) : List Piece :=
  (match key.target with
    | .term term => term.pieces
    | .label label => [.text (nameText label)]) ++
  [.text (match key.order with
    | .asc => " ASC"
    | .desc => " DESC")]

/-- A clause, unless it has no parts: the keyword, and the parts with the separator between them. -/
def Piece.clause (keyword separator : String) (parts : List (List Piece)) : List Piece :=
  if parts.isEmpty then [] else .text keyword :: separated separator parts

/-- The pieces of a selection, given those of its source. The order of the clauses is fixed here. -/
def Query.piecesWith {σ : Type} (sourcePieces : σ → List Piece) (q : Query σ) : List Piece :=
  Piece.clause "SELECT " ", " (q.outputs.map Output.pieces) ++
  .text " FROM " :: (sourcePieces q.source ++
  Piece.clause " WHERE " " AND " (q.conditions.map Condition.pieces) ++
  Piece.clause " GROUP BY " ", " (q.groups.map Term.pieces) ++
  Piece.clause " ORDER BY " ", " (q.sort.map SortKey.pieces) ++
  (match q.limit with
    | some n => [.text " LIMIT ", .value (.int n)]
    | none => []) ++
  (match q.offset with
    | some n => [.text " OFFSET ", .value (.int n)]
    | none => []))

/-- A table under its name. -/
def NamedTable.pieces (t : NamedTable) : List Piece :=
  match t.label? with
  | some name => [.text (nameText t.table ++ " AS " ++ nameText name)]
  | none => [.text (nameText t.table)]

/-- What a table is joined with: a table under its name, or a selection in brackets under its
label. -/
def Joined.pieces : Joined → List Piece
  | .table t => t.pieces
  | .derived query name =>
    Piece.enclosed "(" (query.piecesWith NamedTable.pieces) (") AS " ++ nameText name)

/-- A source. -/
def Source.pieces (source : Source) : List Piece :=
  source.first.pieces ++ match source.join with
    | some (joined, conditions) =>
      .text " JOIN " :: (joined.pieces ++ .text " ON " :: Condition.conjunction conditions)
    | none => []

/-- The pieces of a statement. Everything that is sent to a store is made of them. -/
def Query.pieces (statement : Statement) : List Piece := statement.piecesWith Source.pieces

end PropertyMarket
