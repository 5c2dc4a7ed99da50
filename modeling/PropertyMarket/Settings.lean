import PropertyMarket.Compile.Paging
import PropertyMarket.Legend
import PropertyMarket.Request.Reader

/-!
# Settings

What is configured from outside: the database, the language model, and the usual sizes of legends
and pages.

## Main definitions

* `Settings` — the settings; `Settings.read` reads them from environment variables
* `DatabaseUrl.async` — the address of the database for asynchronous sessions
* `DatabaseUrl.requireAsync` — the same, refused where there are no asynchronous sessions

## Implementation notes

The settings are read like a request, by the readers of its fields, so that a variable which is no
number is reported as such a field would be. Names are compared in capitals. The usual sizes are not
written down here a second time: they are those of the modules that use them, which makes the
defaults of the environment and the defaults of a call the same by definition.
-/

namespace PropertyMarket

/-! ### Environment variables

A variable is a name and a text. What the operating system would not take is refused before anything
is read, one variable after the other; the settings themselves are then read from what is left, and
all that does not fit is reported together. -/

/-- What is configured from outside. Each setting has a usual value, which holds where the
environment says nothing. -/
structure Settings where
  databaseUrl : String := "postgresql://localhost:5432/dvf"
  /-- The key for the language model, if there is one. -/
  modelKey : Option String := none
  /-- The name of the language model. -/
  modelName : String := "gpt-4o-mini"
  legendWidth : Int := FanOut.usualWidth
  legendBuckets : Int := Legend.usualBuckets
  usualRows : Int := Paging.standard.usual
  mostRows : Int := Paging.standard.most
  deriving DecidableEq, Repr

namespace Settings

/-- A character of a name in capitals. Beside the small letters, the sign of the kelvin is a way to
write a letter. -/
def capital (c : Char) : Char := if c = '\u212a' then 'K' else c.toUpper

/-- Environment variables under their names in capitals; of several of one name the last counts, at
the place of the first. -/
def capitals (environment : Record) : Record :=
  Record.putAll [] (environment.map fun (name, value) =>
    (String.ofList (name.toList.map capital), value))

/-- Refuses what the environment cannot hold as a variable: a null character in either part, an
equals sign in the name, a name that is empty, and a value that is no text. -/
def checkVariable (name : String) : Value → Except Fault Unit
  | .text value =>
    if name.contains '\x00' || value.contains '\x00' then .error (.unusable .nullCharacter)
    else if name.contains '=' then .error (.unusable .badVariableName)
    else if name = "" then .error .namelessVariable
    else .ok ()
  | _ => .error .incompatible

/-- The settings of some environment variables; what is missing has its usual value. Every setting
is looked at, so the issues of all of them come together and in this order. -/
def ofRecord (environment : Record) : Checked Settings :=
  let usual : Settings := {}
  let r := capitals environment
  let text (name standard : String) : Checked String :=
    (Key.plain name).withDefault standard Reader.text r
  let number (name : String) (standard : Int) : Checked Int :=
    (Key.plain name).withDefault standard Reader.int r
  Settings.mk <$> text "DATABASE_URL" usual.databaseUrl
    <*> (Key.plain "OPENAI_API_KEY").withDefault usual.modelKey (Reader.nullable Reader.text) r
    <*> text "OPENAI_MODEL" usual.modelName
    <*> number "LEGEND_MAX_CONCURRENCY" usual.legendWidth
    <*> number "LEGEND_DEFAULT_BUCKETS" usual.legendBuckets
    <*> number "QUERY_DEFAULT_LIMIT" usual.usualRows
    <*> number "QUERY_MAX_LIMIT" usual.mostRows

/-- Reads the settings, or says what is wrong with them: first the variables, then the settings. -/
def read (environment : Record) : Except Fault Settings := do
  environment.forM fun (name, value) => checkVariable name value
  (ofRecord environment).orFault "Settings"

/-- The settings as a record. -/
def toRecord (s : Settings) : Record :=
  [("DATABASE_URL", .text s.databaseUrl), ("OPENAI_API_KEY", .ofText? s.modelKey),
    ("OPENAI_MODEL", .text s.modelName), ("LEGEND_MAX_CONCURRENCY", .int s.legendWidth),
    ("LEGEND_DEFAULT_BUCKETS", .int s.legendBuckets), ("QUERY_DEFAULT_LIMIT", .int s.usualRows),
    ("QUERY_MAX_LIMIT", .int s.mostRows)]

end Settings

/-! ### Addresses of databases

An address names its driver by its scheme. Asynchronous sessions need the driver that has them, so
the two schemes of that database which leave the driver open are turned into its own. -/

namespace DatabaseUrl

/-- The scheme of asynchronous sessions. -/
def asyncScheme : String := "postgresql+asyncpg://"

/-- The schemes of a database that has asynchronous sessions. -/
def schemes : List String := ["postgresql://", "postgres://"]

/-- The characters of a text behind a beginning that it has; nothing if it begins otherwise. -/
def behind? (beginning s : String) : Option String :=
  if beginning.toList.isPrefixOf s.toList then
    some (String.ofList (s.toList.drop beginning.length))
  else none

/-- The address for asynchronous sessions. An address with another scheme stays as it is, an
asynchronous one among them. -/
def async (url : String) : String :=
  match schemes.findSome? fun scheme => behind? scheme url with
  | some rest => asyncScheme ++ rest
  | none => url

/-- The address for asynchronous sessions of a value, which has to be a text. -/
def asyncOf : Value → Except Fault String
  | .text url => .ok (async url)
  | _ => .error .notArguments

/-- The address for asynchronous sessions, of a database that has them; every other one is refused,
since no statement could be sent. -/
def requireAsync (url : String) : Except Fault String :=
  if (behind? asyncScheme (async url)).isSome then .ok (async url)
  else .error (.service "Async sessions require a PostgreSQL DATABASE_URL")

end DatabaseUrl

end PropertyMarket
