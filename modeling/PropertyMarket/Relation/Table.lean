import PropertyMarket.Catalog.Metric

/-!
# Tables

The columns of a stored table with their types, and the tables that are not laid out after the
catalog: the raw sales, and the outlines of communes and sections.

## Main definitions

* `ColumnType`, `Column`, `Table` — what a table is made of
* `Table.sales` — one row for each sale
* `Level.outlines` — the outline of each commune, or of each section

## Implementation notes

A table is data, so that questions about it are decided by computation: which columns it has, of
what type they are, whether they may be null. The precomputed relations build theirs from the
catalog in `PropertyMarket.Relation`; here are the ones whose columns are written out.
-/

namespace PropertyMarket

/-- The type of a stored value, with the width or the digits that the store holds it to. -/
inductive ColumnType where
  | integer
  | float
  | date
  /-- Text of at most a number of characters. -/
  | varchar (length : Nat)
  /-- Exact decimals with a number of digits, some of them places. -/
  | numeric (digits places : Nat)
  /-- Exact decimals without a limit. -/
  | number
  | multiPolygon
  deriving DecidableEq, Repr

/-- The name of a type in a statement. -/
def ColumnType.name : ColumnType → String
  | .integer => "INTEGER"
  | .float => "FLOAT"
  | .date => "DATE"
  | .varchar length => "VARCHAR(" ++ intText length ++ ")"
  | .numeric digits places => "NUMERIC(" ++ intText digits ++ ", " ++ intText places ++ ")"
  | .number => "NUMERIC"
  | .multiPolygon => "geometry(MultiPolygon, 4326)"

/-- A column of a table. Whether it may be null is part of it, since a comparison with null is no
answer. -/
structure Column where
  name : String
  type : ColumnType
  nullable : Bool
  deriving DecidableEq, Repr

/-- A table with its columns in order. -/
structure Table where
  name : String
  columns : List Column
  deriving DecidableEq, Repr

namespace Table

/-- The column of a name, if the table has one. -/
def column? (table : Table) (name : String) : Option Column :=
  table.columns.find? fun c => c.name == name

theorem name_of_column? {table : Table} {name : String} {c : Column}
    (h : table.column? name = some c) : c.name = name := by
  simpa using List.find?_some h

/-- The raw sales, as the land registry publishes them. Prices have two places and fourteen digits,
areas two places and twelve. -/
def sales : Table where
  name := "property_sales"
  columns :=
    [⟨"id", .integer, false⟩, ⟨"datemut", .date, false⟩, ⟨"anneemut", .integer, false⟩,
      ⟨"moismut", .integer, false⟩, ⟨"primary_insee_code", .varchar 5, true⟩,
      ⟨"primary_section", .varchar 11, true⟩, ⟨"valeurfonc", .numeric 14 2, true⟩] ++
    counts.map (fun name => ⟨name, .integer, true⟩) ++
    areas.map (fun name => ⟨name, .numeric 12 2, true⟩) ++
    [⟨"codtypbien", .varchar 16, true⟩, ⟨"libtypbien", .varchar 255, true⟩]
where
  /-- How many units of each kind are sold. -/
  counts : List String :=
    ["nblocmut", "nblocmai", "nblocapt", "nblocdep", "nblocact", "nbapt1pp", "nbapt2pp",
      "nbapt3pp", "nbapt4pp", "nbapt5pp", "nbmai1pp", "nbmai2pp", "nbmai3pp", "nbmai4pp",
      "nbmai5pp"]
  /-- The floor areas of each kind, in square metres. -/
  areas : List String :=
    ["sbati", "sbatmai", "sbatapt", "sbatact", "sapt1pp", "sapt2pp", "sapt3pp", "sapt4pp",
      "sapt5pp", "smai1pp", "smai2pp", "smai3pp", "smai4pp", "smai5pp"]

end Table

namespace Level

/-- The column of the finest location key, after which relations of the level are named. -/
def keyColumn : Level → String
  | .commune => "insee_code"
  | .cadastral => "section"

/-- The columns that identify a location, the coarser one first. -/
def keyColumns : Level → List String
  | .commune => ["insee_code"]
  | .cadastral => ["insee_code", "section"]

/-- The field of the finest location key. -/
def keyField : Level → String
  | .commune => "inseeCode"
  | .cadastral => "section"

/-- The fields that identify a location. -/
def keyFields : Level → List String
  | .commune => ["inseeCode"]
  | .cadastral => ["inseeCode", "section"]

/-- The outlines of the locations of a level, one row for each of them. -/
def outlines : Level → Table
  | .commune =>
    ⟨"communes_geom", [⟨"insee_code", .varchar 5, false⟩, ⟨"name", .varchar 255, true⟩,
      ⟨"geom", .multiPolygon, true⟩]⟩
  | .cadastral =>
    ⟨"sections_geom", [⟨"section", .varchar 11, false⟩, ⟨"insee_code", .varchar 5, true⟩,
      ⟨"geom", .multiPolygon, true⟩]⟩

end Level

end PropertyMarket
