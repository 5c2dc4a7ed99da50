import PropertyMarket.Relation

/-!
# Fields

A request names what it filters, sorts, groups and shows by fields. Each family of relations has
one table of fields, and only through it does a name become a column: a name outside the table
is refused, so that no text of a request is ever part of a statement.

## Main definitions

* `Field` — a field with its column and what may be done with it
* `Family.fields` — the table of a family
* `Field.resolve`, `Field.onTable` — the field of a name, and its column on a table

## Implementation notes

A name is looked up in the table of its family and nowhere else, and what goes into a statement is
the column that the table holds and not the name that was given. The tables of the precomputed
relations are computed from the catalog, in the order of the columns, and that of the raw sales is
written out. A family's table covers all its relations, so a field may be known and missing from one
of them: `resolve` and `columnOn` are two steps with two faults.
-/

namespace PropertyMarket

/-- What a field stands for. The kind decides whether a legend can be made of it; everything else is
decided by the two flags of the field. -/
inductive Field.Kind where
  | dimension
  | metric
  | composition
  | window
  | attribute
  deriving DecidableEq, Repr

instance : Vocabulary Field.Kind where
  title := "FieldKind"
  members := [.dimension, .metric, .composition, .window, .attribute]
  word
    | .dimension => "dimension"
    | .metric => "metric"
    | .composition => "composition"
    | .window => "window"
    | .attribute => "attribute"

/-- A field that a request may name. The name is the one in a request, and the column the one in a
table. -/
structure Field where
  name : String
  column : String
  family : Family
  kind : Field.Kind
  /-- May it be summed, averaged and ranked? -/
  numeric : Bool
  /-- May it be grouped by? -/
  groupable : Bool
  deriving DecidableEq, Repr

namespace Field

/-! ### The tables

What each family offers. In the families of precomputed relations the dimensions come first and then
what is measured, metrics before composition counts, each under the name that its column has there.
-/

/-- The field of a dimension. It can always be grouped by, and it counts as a number unless it is
one of the two keys of a location. -/
def ofDimension (family : Family) (d : Dimension) : Field :=
  ⟨d.name, d.column, family, .dimension, d.column != "insee_code" && d.column != "section", true⟩

/-- The fields of some dimensions, in the order of the catalog and not of the names. -/
def dimensions (family : Family) (names : List String) : List Field :=
  (Dimension.catalog.filter fun d => names.contains d.name).map (ofDimension family)

/-- A field of the name of its column that is measured. It is a number and cannot be grouped by. -/
def measure (family : Family) (kind : Kind) (name : String) : Field :=
  ⟨name, name, family, kind, true, false⟩

/-- A metric or a composition count, by its name. -/
def kindOf (name : String) : Kind := if Metric.names.contains name then .metric else .composition

/-- Everything that some relation measures. -/
def measured : List String := Metric.names ++ compositionNames

/-- The raw fields of a sale: name, column, whether numeric, whether groupable. Here the names
differ from the columns, which are those of the land registry. -/
def saleFields : List (String × String × Bool × Bool) := [
  ("id", "id", true, false), ("date", "datemut", false, true), ("year", "anneemut", true, true),
  ("month", "moismut", true, true), ("primaryInseeCode", "primary_insee_code", false, true),
  ("primarySection", "primary_section", false, true), ("price", "valeurfonc", true, false),
  ("nbProperties", "nblocmut", true, false), ("nbHouses", "nblocmai", true, false),
  ("nbApartments", "nblocapt", true, false), ("nbSecondaryUnits", "nblocdep", true, false),
  ("nbWorkspaces", "nblocact", true, false), ("nbApt1Room", "nbapt1pp", true, false),
  ("nbApt2Room", "nbapt2pp", true, false), ("nbApt3Room", "nbapt3pp", true, false),
  ("nbApt4Room", "nbapt4pp", true, false), ("nbApt5Room", "nbapt5pp", true, false),
  ("nbHouse1Room", "nbmai1pp", true, false), ("nbHouse2Room", "nbmai2pp", true, false),
  ("nbHouse3Room", "nbmai3pp", true, false), ("nbHouse4Room", "nbmai4pp", true, false),
  ("nbHouse5Room", "nbmai5pp", true, false), ("floorArea", "sbati", true, false),
  ("houseFloorArea", "sbatmai", true, false), ("apartmentFloorArea", "sbatapt", true, false),
  ("workspaceFloorArea", "sbatact", true, false), ("apt1RoomArea", "sapt1pp", true, false),
  ("apt2RoomArea", "sapt2pp", true, false), ("apt3RoomArea", "sapt3pp", true, false),
  ("apt4RoomArea", "sapt4pp", true, false), ("apt5RoomArea", "sapt5pp", true, false),
  ("house1RoomArea", "smai1pp", true, false), ("house2RoomArea", "smai2pp", true, false),
  ("house3RoomArea", "smai3pp", true, false), ("house4RoomArea", "smai4pp", true, false),
  ("house5RoomArea", "smai5pp", true, false), ("propertyTypeCode", "codtypbien", false, true),
  ("propertyTypeLabel", "libtypbien", false, true)]

/-- What is shown of a sale if nothing else is asked for. -/
def shownByDefault : List String :=
  ["id", "date", "primaryInseeCode", "primarySection", "price", "nbProperties", "nbHouses",
    "nbApartments", "floorArea", "apartmentFloorArea", "houseFloorArea", "propertyTypeCode",
    "propertyTypeLabel"]

end Field

/-- The table of fields of a family, in order. A comparison has four fields for each thing that is
measured, a slope relation one, and three more that describe its window. -/
def Family.fields (family : Family) : List Field :=
  match family with
  | .rollup =>
    Field.dimensions family Dimension.names ++
      Field.measured.map fun name => Field.measure family (Field.kindOf name) name
  | .delta =>
    Field.dimensions family ["inseeCode", "section", "year"] ++
      [⟨"base_year", "base_year", family, .dimension, true, true⟩] ++
      Field.measured.flatMap fun name =>
        Comparison.parts.map fun part =>
          Field.measure family (Field.kindOf name) (part.column name)
  | .slope =>
    Field.dimensions family ["inseeCode", "section", "year", "month"] ++
      windowColumns.map (Field.measure family .window) ++
      Field.measured.map fun name => Field.measure family (Field.kindOf name) (slopeColumn name)
  | .transactions =>
    Field.saleFields.map fun (name, column, numeric, groupable) =>
      ⟨name, column, family, .attribute, numeric, groupable⟩

namespace Field

/-! ### Look-up

Everything that turns a name into a column. The two lemmas at the end are what later proofs use of
it: the field that is found has the name it was looked up by, and it is a field of the table. -/

/-- The field of a name, if the family has one; names are compared letter by letter. -/
def find? (family : Family) (name : String) : Option Field :=
  family.fields.find? fun f => f.name == name

/-- Is there a field of the name? -/
def isKnown (family : Family) : Value → Bool
  | .text name => (find? family name).isSome
  | _ => false

/-- The field of a name; a name that no field has is refused, and the fault quotes the name and the
family. -/
def resolve (family : Family) (name : String) : Except Fault Field :=
  match find? family name with
  | some field => .ok field
  | none => .error (.query (.unknownField (.text name) family))

/-- The field that a value names; only texts name one. The fault is the same for a value of another
kind, which it shows as a literal. -/
def ofValue (family : Family) : Value → Except Fault Field
  | .text name => resolve family name
  | value => .error (.query (.unknownField value family))

/-- The column of a field on a table; a table without it is refused. This is how a section is
refused on relations of communes. -/
def columnOn (field : Field) (table : Table) : Except Fault Column :=
  match table.column? field.column with
  | some column => .ok column
  | none => .error (.query (.missingColumn field.name field.family table.name))

/-- The column that a name stands for on a table: the look-up in the family, then the one on the
table. -/
def onTable (table : Table) (family : Family) (name : String) : Except Fault Column := do
  (← resolve family name).columnOn table

/-- The names of the fields that may be grouped by, sorted. -/
def groupableNames (family : Family) : List String :=
  ((family.fields.filter groupable).map name).mergeSort (fun a b => decide (a ≤ b))

theorem find?_name {family : Family} {name : String} {field : Field}
    (h : find? family name = some field) : field.name = name := by
  simpa using List.find?_some h

theorem mem_fields_of_find? {family : Family} {name : String} {field : Field}
    (h : find? family name = some field) : field ∈ family.fields :=
  List.mem_of_find?_eq_some h

end Field

end PropertyMarket
