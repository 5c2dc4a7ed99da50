import PropertyMarket.Relation.Table

/-!
# Statements

A statement for the store is a typed tree: what it selects, from where, under which conditions,
in which groups and in which order. Column names and values never mix: a name only comes from a
table, and a value is always bound.

## Main definitions

* `Term`, `Condition` — what is computed of a row or a group, and what is asked of it
* `Query` — one selection, over a source that is a parameter
* `Source`, `Statement` — the sources in use, and a selection over one of them

## Implementation notes

A statement is data, and its text is a function of it. What a statement means, which rows it selects
and what it computes of them, can therefore be defined by recursion over the same tree as its text,
and a theorem about the one is a theorem about the other's subject. A query is parametrised by its
source because a source can hold a query in its turn, one level deep and no more; so no definition
over statements has to recurse through nested selections.
-/

namespace PropertyMarket

/-! ### Terms and conditions

Terms are what is computed, conditions what is asked, and the two are mutually recursive only
through the choice between two terms. A bound value and a truth value are different constructors,
since a truth value is written out in the text and needs no place. -/

/-- How two values are compared. All six answer nothing where one of the values is null. -/
inductive Comparator where
  | eq
  | ne
  | gt
  | ge
  | lt
  | le
  deriving DecidableEq, Repr

/-- What is computed of the values of a group, nulls left out. -/
inductive Aggregate where
  | count
  | sum
  | avg
  | min
  | max
  deriving DecidableEq, Repr

/-- The arithmetic of the store. Its numbers are those of its columns, and a division of integers is
written as one of exact decimals. -/
inductive Arithmetic where
  | add
  | sub
  | mul
  | div
  deriving DecidableEq, Repr

mutual

/-- What is computed of a row or a group. Whether it is the one or the other depends on whether an
aggregate stands in it. -/
inductive Term where
  /-- The value of a column of one of the sources. -/
  | column (source name : String)
  /-- A bound value. -/
  | bound (value : Value)
  /-- A truth value that is written out. -/
  | truth (value : Bool)
  | null
  | arithmetic (operator : Arithmetic) (left right : Term)
  | cast (term : Term) (type : ColumnType)
  /-- The value rounded to a number of places. -/
  | round (term : Term) (places : Nat)
  /-- The value, or a bound one in place of null. -/
  | coalesce (term : Term) (value : Value)
  | aggregate (function : Aggregate) (argument : Term)
  /-- The number of rows of a group. -/
  | countRows
  /-- The value at a fraction of the sorted values of a group, interpolated. -/
  | percentile (fraction : Value) (argument : Term)
  /-- The slope of the line of best fit. -/
  | slope (y x : Term)
  /-- One of two values; without the second, null. -/
  | choice (condition : Condition) (yes : Term) (no : Option Term)

/-- What is asked of a row. Each constructor is one form in which a predicate, a bucket or a join is
written. -/
inductive Condition where
  | compare (comparator : Comparator) (left right : Term)
  | between (term : Term) (low high : Value)
  | oneOf (term : Term) (values : List Value)
  /-- Matches a pattern, whatever the case. -/
  | matches (term : Term) (pattern : String)
  | isNull (term : Term)
  | isNotNull (term : Term)
  | either (first second : Condition)
  /-- The shape shares a point with the box of four sides. -/
  | intersects (shape : Term) (west south east north : Double)

end

/-! ### Selections

One selection is a record of its clauses, each with what it has when nothing is asked: no
conditions, no groups, no order, no limit. A clause that is empty is not written. -/

/-- A term that is shown, under a label or under its own name. Rows that come back are read by these
names. -/
structure Output where
  term : Term
  label : Option String := none

/-- What rows are sorted by: a term, or what is shown under a label. A label is written without a
source, since it is none of the columns. -/
inductive SortTarget where
  | term (term : Term)
  | label (label : String)

/-- A key of a sort. -/
structure SortKey where
  target : SortTarget
  order : SortOrder

/-- One selection, over a source of any kind. The fields are the clauses in the order in which they
are written. -/
structure Query (σ : Type) where
  outputs : List Output
  source : σ
  conditions : List Condition := []
  groups : List Term := []
  sort : List SortKey := []
  limit : Option Int := none
  offset : Option Int := none

/-- A table, under its own name or under another, by which two uses of one table are told apart. -/
structure NamedTable where
  table : String
  label? : Option String := none
  deriving DecidableEq, Repr

/-- The name by which a table's columns are reached. -/
def NamedTable.reach (t : NamedTable) : String := t.label?.getD t.table

/-- What a table is joined with: another table, or a selection under a label. -/
inductive Joined where
  | table (table : NamedTable)
  | derived (query : Query NamedTable) (label : String)

/-- A table, perhaps joined with another source on some conditions. -/
structure Source where
  first : NamedTable
  join : Option (Joined × List Condition) := none

/-- A statement for the store: one selection over a source in use. -/
abbrev Statement := Query Source

/-- A table alone as a source. -/
def Source.ofTable (table : Table) : Source := ⟨⟨table.name, none⟩, none⟩

/-- A column of a table as a term. -/
def Term.ofColumn (table : Table) (column : Column) : Term := .column table.name column.name

/-- All columns of a table, in order and under their own names. -/
def Output.ofTable (table : Table) : List Output :=
  table.columns.map fun column => ⟨.ofColumn table column, none⟩

end PropertyMarket
