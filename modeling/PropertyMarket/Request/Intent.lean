import PropertyMarket.Request.State

/-!
# Loose intents

An intent is what a person, or a language model on their behalf, seems to want. It is read in two
ways at once. What is merely inferred (dimension, metric, property type, order, year, month,
limit) is ignored where it makes no sense, and the ignored values can be listed. What says which
rows are meant (codes, filters, the least number of sales) has to fit.

## Main definitions

* `UserIntent` — a loose intent; `UserIntent.read` — its reading
* `UserIntent.ignored` — the values that the reading leaves out
* `UserIntent.toState` — the read of a rollup that it stands for
* `FilterState.ofIntent` — both steps at once

## Implementation notes

What is ignored and what is kept are decided by one function for each lenient field, which returns
the value if it makes sense. Reading takes what it returns, and listing takes what it does not, so
the two can never disagree. A lenient field that is null is neither: nothing was said. The strict
fields are read as in any other request, and only their issues can refuse an intent.
-/

namespace PropertyMarket

/-- A loose intent. Every part may be missing; the lists of places are empty then, and filters that
are not given are told apart from filters that are empty. -/
structure UserIntent where
  /-- The name of a dimension. -/
  dimension : Option String := none
  /-- The name of a metric. -/
  metric : Option String := none
  type : Option PropertyType := none
  year : Option Int := none
  month : Option Int := none
  inseeCodes : List String := []
  sections : List String := []
  filters : Option (List (String × NumericFilter)) := none
  minSales : Option Int := none
  limit : Option Int := none
  order : Option SortOrder := none
  deriving DecidableEq, Repr

namespace UserIntent

/-! ### What may be ignored

For each lenient field there is a test of its values. A value of the wrong kind, a word that is not
known and a number out of range are all the same here: they make no sense, and the field counts as
not given. -/

/-- The field of the dimension. -/
def dimensionKey : Key := ⟨"primaryDimension", "primary_dimension"⟩

/-- The field of the least number of sales. -/
def minSalesKey : Key := ⟨"minSales", "min_sales"⟩

/-- A text of a list of names. Names are compared letter by letter. -/
def nameOf? (names : List String) : Value → Option String
  | .text s => if names.contains s then some s else none
  | _ => none

/-- An integer that a test accepts. A number of another kind is none, whatever its value. -/
def intOf? (accepts : Value → Bool) : Value → Option Int
  | .int n => if accepts (.int n) then some n else none
  | _ => none

/-- Is the value a number of rows that may be asked for? -/
def isRowLimit : Value → Bool
  | .int n => 1 ≤ n && n ≤ Reader.maxRows
  | _ => false

/-- The dimension that a value names. -/
def dimension? : Value → Option String := nameOf? Dimension.names

/-- The metric that a value names. -/
def metric? : Value → Option String := nameOf? Metric.names

/-- The year that a value is. -/
def year? : Value → Option Int := intOf? Calendar.isYear

/-- The month that a value is. -/
def month? : Value → Option Int := intOf? Calendar.isMonth

/-- The number of rows that a value is. -/
def limit? : Value → Option Int := intOf? isRowLimit

/-- Reads what may be ignored: the value if it is given and makes sense. -/
def lenient {α : Type} (key : Key) (pick : Value → Option α) (r : Record) : Option α :=
  (key.find? r).bind pick

/-- An ignored value, with the field under its first name. -/
structure Ignored where
  field : String
  value : Value
  deriving Repr

/-- The value of a field if it is given and ignored; a list of at most one. -/
def ignoredIn {α : Type} (key : Key) (pick : Value → Option α) (r : Record) : List Ignored :=
  match key.find? r with
  | some value => if value.isNull || (pick value).isSome then [] else [⟨key.camel, value⟩]
  | none => []

/-- An ignored value on a line. -/
def Ignored.line (i : Ignored) : String :=
  "[INTENT] Ignoring " ++ i.field ++ "=" ++ i.value.literal

/-- The ignored values, in the order of the fields. An intent that is no record has none. -/
def ignored : Value → List Ignored
  | .record r =>
    ignoredIn dimensionKey dimension? r ++ ignoredIn Key.metric metric? r ++
      ignoredIn Key.propertyType (Vocabulary.ofValue? (α := PropertyType)) r ++
      ignoredIn Key.year year? r ++ ignoredIn Key.month month? r ++
      ignoredIn Key.limit limit? r ++
      ignoredIn Key.sortOrder (Vocabulary.ofValue? (α := SortOrder)) r
  | _ => []

/-! ### What has to fit

Codes, filters and the least number of sales say which rows are meant, and a reading that dropped
one of them would answer another question. So they are checked, and what does not fit refuses the
intent. -/

/-- The most codes of a kind. -/
def maxLocations : Nat := 100

/-- The characters of a commune code. -/
def inseeCodeLength : Nat := 5

/-- Has a section identifier this number of characters? -/
def isSectionLength (n : Nat) : Bool := n == 10 || n == 11

/-- A list of texts; a single text stands for a list of one, null for an empty list. A longer list
than may be given is not looked into. -/
def readTexts : Value → Checked (List String)
  | .null => .valid []
  | .text s => .valid [s]
  | value => Reader.listUpTo maxLocations Reader.text value

/-- Refuses the first text that a test rejects; the later ones are not reported. -/
def checkEach (accepts : String → Bool) (complaint : String) (texts : List String) :
    Checked (List String) :=
  match texts.find? fun s => !accepts s with
  | some s => .refuse (.refused (complaint ++ ", got " ++ Text.quoted s))
  | none => .valid texts

/-- Reads commune codes, which are known by their length only. -/
def readInseeCodes (value : Value) : Checked (List String) :=
  (readTexts value).andThen <| checkEach (fun s => s.length == inseeCodeLength)
    ("INSEE code must have " ++ intText inseeCodeLength ++ " characters")

/-- Reads section identifiers, which have one of two lengths. -/
def readSections (value : Value) : Checked (List String) :=
  (readTexts value).andThen <| checkEach (fun s => isSectionLength s.length)
    "section identifier must have 10 or 11 characters"

/-- The names that are no metrics, sorted, so that the message does not depend on the order of the
filters. -/
def strangers (filters : List (String × NumericFilter)) : List String :=
  ((filters.map (·.1)).filter fun name => !Metric.names.contains name).mergeSort
    fun a b => decide (a ≤ b)

/-- Refuses filters of anything but metrics. -/
def checkFilters (filters : List (String × NumericFilter)) :
    Checked (List (String × NumericFilter)) :=
  match strangers filters with
  | [] => .valid filters
  | names => .refuse (.refused ("filter keys must be metric fields, got " ++
      (Value.ofTexts names).literal))

/-- Reads filters of metrics. Whether the names are metrics is asked once every filter has been
read. -/
def readFilters (value : Value) : Checked (List (String × NumericFilter)) :=
  (Reader.named NumericFilter.read value).andThen checkFilters

/-- Reads an intent from a record: the lenient fields by their tests, the strict ones by readers, of
which the issues are listed. -/
def ofRecord (r : Record) : Checked UserIntent :=
  (fun inseeCodes sections filters minSales =>
    { dimension := lenient dimensionKey dimension? r
      metric := lenient Key.metric metric? r
      type := lenient Key.propertyType Vocabulary.ofValue? r
      year := lenient Key.year year? r
      month := lenient Key.month month? r
      inseeCodes, sections, filters, minSales
      limit := lenient Key.limit limit? r
      order := lenient Key.sortOrder Vocabulary.ofValue? r })
    <$> Key.inseeCodes.withDefault [] readInseeCodes r
    <*> Key.sections.withDefault [] readSections r
    <*> Key.filters.withDefault none (Reader.nullable readFilters) r
    <*> minSalesKey.withDefault none
      (Reader.nullable (Reader.intWithin 0 none Reader.strictInt)) r

/-- Reads an intent. -/
def read : Value → Checked UserIntent := Reader.model "UserIntent" ofRecord

/-- An intent as a record. -/
def toRecord (naming : Naming) (i : UserIntent) : Record :=
  [(dimensionKey.name naming, .ofText? i.dimension), (Key.metric.name naming, .ofText? i.metric),
    (Key.propertyType.name naming, .ofText? (i.type.map Vocabulary.word)),
    (Key.year.name naming, .ofInt? i.year), (Key.month.name naming, .ofInt? i.month),
    (Key.inseeCodes.name naming, .ofTexts i.inseeCodes),
    (Key.sections.name naming, .ofTexts i.sections),
    (Key.filters.name naming, FilterState.filtersValue i.filters),
    (minSalesKey.name naming, .ofInt? i.minSales), (Key.limit.name naming, .ofInt? i.limit),
    (Key.sortOrder.name naming, .ofText? (i.order.map Vocabulary.word))]

/-! ### What is meant

The state of an intent is a function of it that cannot fail: what is missing has a usual value.
Whether a statement can be built of the state is another question, since a dimension may become the
sort key of a relation that lacks it. -/

/-- Writes a filter: a new metric comes last, a known one keeps its place. It is `Record.put` for
filters. -/
def putFilter (name : String) (filter : NumericFilter) :
    List (String × NumericFilter) → List (String × NumericFilter)
  | [] => [(name, filter)]
  | (n, f) :: rest =>
    if n = name then (name, filter) :: rest else (n, f) :: putFilter name filter rest

/-- The filters, with a positive least number of sales among them. It replaces a filter of that
metric, whatever that was. -/
def withMinSales (minSales : Option Int) (filters : List (String × NumericFilter)) :
    List (String × NumericFilter) :=
  match minSales with
  | some n => if 0 < n then putFilter "total_sales" (.atLeast (.int n)) filters else filters
  | none => filters

/-- The dimension that an intent is about is the sort key; else its metric, if rollups are sorted by
it; else the preferred metric. The dimension is not compared with the grain. -/
def sortKey (i : UserIntent) : String :=
  match i.dimension, i.metric with
  | some dimension, _ => dimension
  | none, some metric => if Metric.sortable.contains metric then metric else Metric.preferred
  | none, none => Metric.preferred

/-- Sections are meant if the dimension says so, or if there are any. Commune codes decide
nothing. -/
def level (i : UserIntent) : Level :=
  if i.dimension = some "section" ∨ i.sections ≠ [] then .cadastral else .commune

/-- The read of a rollup that an intent stands for, with the usual value of everything that is not
meant. -/
def toState (i : UserIntent) : FilterState :=
  let filters := withMinSales i.minSales (i.filters.getD [])
  { level := i.level
    type := i.type.getD .apartment
    field := i.metric.getD Metric.preferred
    year := i.year.getD Calendar.latestYear
    month := i.month
    inseeCodes := i.inseeCodes
    sections := i.sections
    filters := if filters.isEmpty then none else some filters
    sortBy := i.sortKey
    order := i.order.getD .desc
    limit := i.limit.getD defaultRows
    offset := 0 }

end UserIntent

/-- The read of a rollup that a loose intent stands for, or the issues of its strict fields. -/
def FilterState.ofIntent (intent : Value) : Except Fault FilterState :=
  ((UserIntent.read intent).orFault "UserIntent").map UserIntent.toState

end PropertyMarket
