import PropertyMarket.Value

/-!
# Closed vocabularies

A request names most of its choices by a word of a closed vocabulary: the level, the property
type, the time grain, the family of a relation, the category of a question.

## Main definitions

* `Vocabulary` — a type whose members each have one word
* `Vocabulary.ofWord?`, `Vocabulary.ofValue?` — the member that a word names
* `Vocabulary.ofWord?_eq_some_iff` — a member is named by its word and by nothing else
* `Level`, `PropertyType`, `TimeGrain`, `Family`, `Category`, `SortOrder` — the vocabularies

## Implementation notes

A vocabulary carries the proofs that its list of members is complete and that no two members have
one word, so reading a word is the inverse of writing it in every vocabulary, by one lemma and not
by cases. Each vocabulary is an inductive type: a value that has been read is one of its members,
and no later definition has to ask whether a word is known.
-/

namespace PropertyMarket

/-- A type whose members each have one word, which no other member has. The list of members is the
order in which a message or a prompt lists them. -/
class Vocabulary (α : Type) where
  /-- The name of the vocabulary in messages. -/
  title : String
  /-- The members, in the order in which they are listed. -/
  members : List α
  /-- The word of a member. -/
  word : α → String
  /-- Every member is the first one of its word. -/
  find?_word : ∀ a, members.find? (fun b => word b == word a) = some a := by
    intro a
    cases a <;> decide

namespace Vocabulary

variable {α : Type} [Vocabulary α]

/-- The words, in order. This is the list that suggestions and prompts show. -/
def words (α : Type) [Vocabulary α] : List String := (members (α := α)).map word

/-- The member that a word names, if there is one; words are compared letter by letter. -/
def ofWord? (s : String) : Option α := members.find? fun a => word a == s

/-- The member that a value names; only texts name one. This is the first step of every reader of a
closed choice. -/
def ofValue? : Value → Option α
  | .text s => ofWord? s
  | _ => none

theorem word_of_ofWord? {s : String} {a : α} (h : ofWord? s = some a) : word a = s := by
  simpa using List.find?_some h

@[simp] theorem ofWord?_word (a : α) : ofWord? (word a) = some a :=
  find?_word a

theorem ofWord?_eq_some_iff {s : String} {a : α} : ofWord? s = some a ↔ word a = s :=
  ⟨word_of_ofWord?, fun h => h ▸ ofWord?_word a⟩

theorem word_inj {a b : α} : word a = word b ↔ a = b := by
  refine ⟨fun h => ?_, congrArg word⟩
  have hb := ofWord?_eq_some_iff.2 h
  rw [ofWord?_word] at hb
  exact (Option.some.inj hb).symm

theorem mem_members (a : α) : a ∈ members :=
  List.mem_of_find?_eq_some (find?_word a)

end Vocabulary

/-- The word of a member as a value. -/
def Value.ofWord {α : Type} [Vocabulary α] (a : α) : Value := .text (Vocabulary.word a)

/-! ### Where and what

The vocabularies that select a relation: how finely places and time are divided, what is sold, and
which figures are wanted. -/

/-- How finely locations are divided: into communes, or into their cadastral sections. A section
belongs to one commune. -/
inductive Level where
  | commune
  | cadastral
  deriving DecidableEq, Repr, Inhabited

instance : Vocabulary Level where
  title := "LevelEnum"
  members := [.commune, .cadastral]
  word
    | .commune => "commune"
    | .cadastral => "section"

/-- What kind of property is sold. -/
inductive PropertyType where
  | apartment
  | house
  deriving DecidableEq, Repr, Inhabited

instance : Vocabulary PropertyType where
  title := "PropertyTypeEnum"
  members := [.apartment, .house]
  word
    | .apartment => "apartment"
    | .house => "house"

/-- How finely time is divided. Weeks are those of the ISO calendar and have years of their own. -/
inductive TimeGrain where
  | month
  | year
  | week
  deriving DecidableEq, Repr, Inhabited

instance : Vocabulary TimeGrain where
  title := "TimeGrainEnum"
  members := [.month, .year, .week]
  word
    | .month => "month"
    | .year => "year"
    | .week => "week"

/-- A month asks for monthly rows; without one the rows are yearly. Nothing but the presence of the
month counts. -/
def TimeGrain.ofMonth {α : Type} (month : Option α) : TimeGrain :=
  if month.isSome then .month else .year

/-- The families of relations, each with its own table of fields. The last one is that of the raw
sales, which no relation precomputes. -/
inductive Family where
  | rollup
  | delta
  | slope
  | transactions
  deriving DecidableEq, Repr, Inhabited

instance : Vocabulary Family where
  title := "RelationFamily"
  members := [.rollup, .delta, .slope, .transactions]
  word
    | .rollup => "rollup"
    | .delta => "delta"
    | .slope => "slope"
    | .transactions => "transactions"

/-! ### How to ask

The vocabularies of a question and of a sort. -/

/-- What kind of question is asked. Three of the kinds are answered by operations, and the last one
is for questions that fit none. -/
inductive Category where
  | query
  | aggregate
  | calculate
  | schema
  | explain
  | compare
  | unknown
  deriving DecidableEq, Repr, Inhabited

instance : Vocabulary Category where
  title := "IntentCategory"
  members := [.query, .aggregate, .calculate, .schema, .explain, .compare, .unknown]
  word
    | .query => "query"
    | .aggregate => "aggregate"
    | .calculate => "calculate"
    | .schema => "schema"
    | .explain => "explain"
    | .compare => "compare"
    | .unknown => "unknown"

/-- The direction of a sort. -/
inductive SortOrder where
  | asc
  | desc
  deriving DecidableEq, Repr, Inhabited

instance : Vocabulary SortOrder where
  title := "SortOrder"
  members := [.asc, .desc]
  word
    | .asc => "asc"
    | .desc => "desc"

end PropertyMarket
