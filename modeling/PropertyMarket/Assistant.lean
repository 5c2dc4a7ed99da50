import PropertyMarket.Assistant.Prompt
import PropertyMarket.Request.Intent
import PropertyMarket.Settings

/-!
# The assistant

Questions in common words are turned into requests by a language model. Its replies are not
trusted: each is read as JSON and checked before anything is made of it.

## Main definitions

* `Completion`, `LanguageModel` — what the language model is asked, and what it answers
* `Exchange` — what is sent to the model, and what comes of it
* `Assistant.classify` — the category of a question
* `Assistant.extract`, `Assistant.filterState` — its intent, as it is and as a read of a rollup
* `Assistant.operation` — the operation that a question of a category asks for

## Implementation notes

The language model is a parameter of which nothing is assumed: it is a function to replies, and a
reply may be any text, or none, or a failure. So whatever holds of the assistant holds for every
model, and in particular for one that is wrong. A reply passes two gates, the one of JSON objects
and the one of the request that it should be; nothing of it goes further except through them.
-/

namespace PropertyMarket

/-! ### Asking a language model

One completion is one question under one prompt. What is sent is kept beside what comes of it, as
with a store, so that it can be said when nothing is asked. -/

/-- What the language model is asked: which model, under which prompt, and the question as it was
put. -/
structure Completion where
  model : String
  prompt : Prompt
  question : String
  deriving DecidableEq, Repr

namespace Completion

/-- In which parts a question is sent: the prompt, then the question. -/
def roles : List String := ["system", "user"]

/-- Replies do not vary. -/
def temperature : Int := 0

/-- Replies are JSON objects. -/
def replyFormat : Record := [("type", .text "json_object")]

/-- How many seconds a reply may take. -/
def timeout : Int := 30

end Completion

/-- A language model by its replies: a text, or none, or a message why it cannot be reached. The
same completion always has the same reply. -/
abbrev LanguageModel := Completion → Except String (Option String)

/-- What is sent to the language model, and what comes of it. The list is empty where it is not
asked. -/
structure Exchange (α : Type) where
  sent : List Completion
  outcome : Except Fault α

/-- What is made of the outcome of an exchange. Nothing more is sent by it, and a failure stays as
it is. -/
def Exchange.andThen {α β : Type} (e : Exchange α) (next : α → Except Fault β) : Exchange β :=
  ⟨e.sent, e.outcome.bind next⟩

/-- The JSON object of a reply. Each way of not being one is a fault of its own, with the question
and as much of the reply as there is. -/
def Completion.payload (question : String) (reply : Except String (Option String)) :
    Except Fault Record :=
  let refuse (cause : AssistantError.Cause) (text : String) : Except Fault Record :=
    .error (.assistant ⟨cause, question, text⟩)
  match reply with
  | .error message => refuse (.noReply message) ""
  | .ok none => refuse .emptyReply ""
  | .ok (some text) =>
    if text = "" then refuse .emptyReply ""
    else match Json.read text with
      | .ok (.record r) => .ok r
      | .ok _ => refuse .notObject text
      | .error .malformed => refuse .notJson text
      | .error (.oversized digits) => .error (.unusable (.oversized digits))
      | .error .tooDeep => .error .tooDeep

/-! ### Classifications

A classification is read leniently, since its reader wants a category in every case: a category that
is not known becomes the unknown one, and a confidence that is no number becomes zero. -/

/-- The category of a question, with how sure the language model is and why. -/
structure Classification where
  category : Category
  /-- How sure the language model is, within the unit interval unless it is not a number. -/
  confidence : Double
  explanation : String
  deriving DecidableEq, Repr

namespace Classification

/-- The number nearest to a given one within the unit interval. A NaN is on neither side of it and
passes through. -/
def clamp (x : Double) : Double :=
  let raised := if x.lt 0 then 0 else x
  if Double.lt 1 raised then 1 else raised

/-- The confidence that a value stands for; none if it is no number. A whole number too large for
binary64 is the one value that fails. -/
def confidenceOf (value : Value) : Except Fault Double :=
  match (value.toScalar : Except Fault Double) with
  | .ok x => .ok (clamp x)
  | .error .tooLarge => .error .tooLarge
  | .error _ => .ok 0

/-- The classification of a reply; a category that is not known is the unknown one. An explanation
is shown as running text, of whatever kind it is. -/
def ofRecord (r : Record) : Except Fault Classification := do
  return {
    category := (Vocabulary.ofValue? (r.getD "category")).getD .unknown
    confidence := ← confidenceOf (r.getD "confidence")
    explanation := ((r.get? "explanation").getD (.text "")).display }

/-- A classification as a record. -/
def toRecord (c : Classification) : Record :=
  [("category", .ofWord c.category), ("confidence", .double c.confidence),
    ("explanation", .text c.explanation)]

end Classification

/-! ### The assistant

The entry points. Each asks at most once, and makes of the reply what it needs: a classification, an
intent, the read of a rollup, or an operation. -/

/-- A language model under a name. -/
structure Assistant where
  model : LanguageModel
  name : String

namespace Assistant

/-- The assistant of some settings: with a given model, else with the one that the key opens. An
empty key is no key, and an empty name is no name. -/
def ofSettings (s : Settings) (connect : String → LanguageModel) (model? : Option LanguageModel)
    (name? : Option String) : Except Fault Assistant :=
  let name := match name? with
    | some name => if name = "" then s.modelName else name
    | none => s.modelName
  match model?, s.modelKey with
  | some model, _ => .ok ⟨model, name⟩
  | none, some key => if key = "" then .error (.unusable .noApiKey) else .ok ⟨connect key, name⟩
  | none, none => .error (.unusable .noApiKey)

/-- Asks the language model, and reads its reply as an object. This is the only place where it is
asked. -/
def ask (a : Assistant) (prompt : Prompt) (question : String) : Exchange Record :=
  let completion : Completion := ⟨a.name, prompt, question⟩
  ⟨[completion], Completion.payload question (a.model completion)⟩

/-- The category of a question. -/
def classify (a : Assistant) (question : String) : Exchange Classification :=
  (a.ask .classification question).andThen Classification.ofRecord

/-- The intent of a question, as the language model gives it: an object of which nothing else is
known. -/
def extract (a : Assistant) (question : String) : Exchange Record := a.ask .intent question

/-- The read of a rollup that a question asks for. What the intent does not say, and what it says
wrongly in a lenient field, has its usual value. -/
def filterState (a : Assistant) (question : String) : Exchange FilterState :=
  (a.extract question).andThen fun intent => FilterState.ofIntent (.record intent)

/-- The operation of a kind that a reply gives the arguments of. Arguments that do not fit are a
fault which counts the issues and holds the arguments as text. -/
def readOperation (kind : Operation.Kind) (question : String) (arguments : Record) :
    Except Fault Operation :=
  match kind.read (.record arguments) with
  | .valid o => .ok o
  | .invalid issues =>
    .error (.assistant ⟨.mismatch kind.model issues.length, question,
      Json.write .ascii (.record arguments)⟩)

/-- The operation that a question of a category asks for. The model is asked only if there is an
operation for the category. -/
def operation (a : Assistant) (question : String) (category : Value) : Exchange Operation :=
  match (Vocabulary.require category : Except Fault Category) with
  | .error fault => ⟨[], .error fault⟩
  | .ok c =>
    match c.operation? with
    | none => ⟨[], .error (.assistant ⟨.noArguments c, question, ""⟩)⟩
    | some kind =>
      (a.ask (.operation kind) question).andThen (readOperation kind question)

end Assistant

end PropertyMarket
