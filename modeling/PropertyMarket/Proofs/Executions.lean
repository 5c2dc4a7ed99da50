import PropertyMarket.Assistant
import PropertyMarket.Execution
import PropertyMarket.Proofs.Refusals
import PropertyMarket.Proofs.Reshaping
import PropertyMarket.Proofs.Strictness

/-!
# What the store receives

Before a request gets to the store it is resolved, read and compiled, and it may fail at each of
these stages. Whatever the stage is, the store then receives nothing, and the failure is passed on
as it is. A request that gets past all of them is one complete statement, which is sent once; a
failure of the store is reported as one, and of the rows that come back each gives one result.

Of the stages only the resolution of a category has many ways to end, so these are written down as
a relation of their own, in terms of what is given and not of how it is looked at. An assistant
resolves its categories by the same table, so what it has read can be run as it is.

## Main definitions

* `Operation.Resolves` — what a category and what is given for arguments stand for
* `Execution.Reads` — nothing but one complete statement is sent, and each row gives one result

## Main results

* `Operation.resolves_iff` — categories and arguments are resolved in this way
* `Execution.reads_read` — an execution sends nothing but its statement, once
* `Assistant.operation_eq_ok_iff` — the operation of an assistant is that of its reply
* `Execution.sends_complete_statements` — what the store receives, for every kind of request

## Implementation notes

An execution is a pair of what was sent and what came of it, so that nothing is sent is a statement
about the model and not about a log. All kinds of requests go through one function,
`Execution.read`, which is given a statement or a fault, a name for the request, and what is made of
a row. What is proved of it holds of each kind, whose part is only to say which rows can be
reshaped.

A row that comes back may lack a column that reshaping needs, since the store is any function. Then
there is no result; so the rows are asked to carry these columns, and nothing else.
-/

namespace PropertyMarket

/-! ### Categories and what is given for arguments

A category may be any value, and what is given for arguments any value or an operation that has been
read before. The cases below exclude each other, and together they are all there are. -/

/-- What a category and what is given for arguments stand for: an operation, or a fault. The
category is looked at first, so that arguments of an unknown category are never read. -/
inductive Operation.Resolves (category : Value) : Given → Except Fault Operation → Prop
  | unknown (given : Given) (unnamed : ∀ c : Category, category ≠ .ofWord c) :
    Resolves category given (.error (.unusable (.notMember category "IntentCategory")))
  | notExecutable (given : Given) (c : Category) (named : category = .ofWord c)
      (idle : ∀ k : Kind, k.category ≠ c) :
    Resolves category given (.error (.query (.notExecutable c [.query, .aggregate, .calculate])))
  | shapeless (k : Kind) (value : Value) (named : category = .ofWord k.category)
      (shape : ∀ r, value ≠ .record r) :
    Resolves category (.value value) (.error .notArguments)
  | invalid (k : Kind) (r : Record) {issues : List Issue} (named : category = .ofWord k.category)
      (read : k.read (.record r) = .invalid issues) :
    Resolves category (.value (.record r)) (.error (.invalid k.model issues))
  | valid (k : Kind) (r : Record) {o : Operation} (named : category = .ofWord k.category)
      (read : k.read (.record r) = .valid o) :
    Resolves category (.value (.record r)) (.ok o)
  | mistaken (k : Kind) (o : Operation) (named : category = .ofWord k.category)
      (other : o.kind ≠ k) :
    Resolves category (.operation o) (.error .notArguments)
  | plain (o : Operation) (named : category = .ofWord o.kind.category) :
    Resolves category (.operation o) (.ok o)

/-- A category is answered by an operation exactly if it is that of a kind. -/
theorem Category.operation?_eq_some_iff {c : Category} {k : Operation.Kind} :
    c.operation? = some k ↔ k.category = c := by
  constructor
  · intro h
    cases c <;> cases k <;> first | rfl | nomatch h
  · rintro rfl
    exact Operation.Kind.operation?_category k

theorem Vocabulary.require_ofWord {α : Type} [Vocabulary α] (a : α) :
    require (.ofWord a) = .ok a := by
  rw [require, ofValue?_eq_some_iff.2 rfl]

theorem Vocabulary.require_eq_error {α : Type} [Vocabulary α] {v : Value}
    (unnamed : ∀ a : α, v ≠ .ofWord a) :
    (require v : Except Fault α) = .error (.unusable (.notMember v (title α))) := by
  have none_named : (ofValue? v : Option α) = none :=
    Option.eq_none_iff_forall_ne_some.2 fun a h => unnamed a (ofValue?_eq_some_iff.1 h)
  rw [require, none_named]

namespace Operation

theorem kind_of_read {k : Kind} {v : Value} {o : Operation} (h : k.read v = .valid o) :
    o.kind = k := by
  cases k <;> obtain ⟨args, -, rfl⟩ := Checked.map_eq_valid h <;> rfl

/-- What is given is looked at only if the category is that of a kind. -/
theorem ofGiven_of_unnamed {category : Value} (unnamed : ∀ c : Category, category ≠ .ofWord c)
    (given : Given) :
    ofGiven category given = .error (.unusable (.notMember category "IntentCategory")) := by
  cases given <;> rw [ofGiven] <;> try rw [ofArguments]
  all_goals rw [Vocabulary.require_eq_error unnamed]; rfl

theorem ofGiven_of_idle {c : Category} (idle : c.operation? = none) (given : Given) :
    ofGiven (.ofWord c) given =
      .error (.query (.notExecutable c [.query, .aggregate, .calculate])) := by
  cases given <;> rw [ofGiven] <;> try rw [ofArguments]
  all_goals rw [Vocabulary.require_ofWord, Outcome.ok_bind, idle]; rfl

theorem ofGiven_record (k : Kind) (r : Record) :
    ofGiven (.ofWord k.category) (.value (.record r)) =
      (k.read (.record r)).orFault k.model := by
  rw [ofGiven, ofArguments, Vocabulary.require_ofWord, Outcome.ok_bind, Kind.operation?_category]

theorem ofGiven_shapeless (k : Kind) {v : Value} (shape : ∀ r, v ≠ .record r) :
    ofGiven (.ofWord k.category) (.value v) = .error .notArguments := by
  rw [ofGiven, ofArguments, Vocabulary.require_ofWord, Outcome.ok_bind, Kind.operation?_category]
  cases v with
  | record r => exact absurd rfl (shape r)
  | _ => rfl

theorem ofGiven_operation (k : Kind) (o : Operation) :
    ofGiven (.ofWord k.category) (.operation o) =
      if o.kind = k then .ok o else .error .notArguments := by
  rw [ofGiven, Vocabulary.require_ofWord, Outcome.ok_bind, Kind.operation?_category]

/-- There is an outcome for every category and everything that may be given. -/
theorem resolves_ofGiven (category : Value) (given : Given) :
    Resolves category given (ofGiven category given) := by
  by_cases named : ∃ c : Category, category = .ofWord c
  · obtain ⟨c, rfl⟩ := named
    cases hk : c.operation? with
    | none =>
      rw [ofGiven_of_idle hk]
      refine .notExecutable given c rfl fun k same => ?_
      nomatch hk.symm.trans (Category.operation?_eq_some_iff.2 same)
    | some k =>
      obtain rfl := Category.operation?_eq_some_iff.1 hk
      cases given with
      | operation o =>
        rw [ofGiven_operation]
        split_ifs with same
        · exact .plain o (by rw [same])
        · exact .mistaken k o rfl same
      | value v =>
        by_cases shape : ∃ r, v = .record r
        · obtain ⟨r, rfl⟩ := shape
          rw [ofGiven_record]
          cases read : k.read (.record r) with
          | valid o => exact .valid k r rfl read
          | invalid issues => exact .invalid k r rfl read
        · have shape := not_exists.1 shape
          rw [ofGiven_shapeless k shape]
          exact .shapeless k v rfl shape
  · have unnamed := not_exists.1 named
    rw [ofGiven_of_unnamed unnamed]
    exact .unknown given unnamed

/-- **Categories and arguments are resolved in this way, and in no other.** Every case of the
relation is one that occurs, and no two of them apply together. -/
theorem resolves_iff {category : Value} {given : Given} {outcome : Except Fault Operation} :
    Resolves category given outcome ↔ ofGiven category given = outcome := by
  refine ⟨fun h => ?_, fun h => h ▸ resolves_ofGiven category given⟩
  cases h with
  | unknown _ unnamed => exact ofGiven_of_unnamed unnamed given
  | notExecutable _ c named idle =>
    subst named
    refine ofGiven_of_idle (Option.eq_none_iff_forall_ne_some.2 fun k hk => ?_) given
    exact idle k (Category.operation?_eq_some_iff.1 hk)
  | shapeless k v named shape =>
    subst named
    exact ofGiven_shapeless k shape
  | invalid k r named read | valid k r named read =>
    subst named
    rw [ofGiven_record, read]
    rfl
  | mistaken k o named other =>
    subst named
    rw [ofGiven_operation, if_neg other]
  | plain o named =>
    subst named
    rw [ofGiven_operation, if_pos rfl]

end Operation

/-! ### One statement, or none

A request has a statement or it fails before there is one. Each field of the structure takes one of
the ways in which an execution can go on from there. -/

/-- Of a request only its complete statement is sent, once. A request without a statement fails as
its statement does, a failure of the store is reported under the name of the request, and rows that
carry what is asked of them give one result each, in their order. -/
structure Execution.Reads {α : Type} (e : Execution (List α)) (store : Store) (request : String)
    (statement : Except Fault Statement) (Carries : Record → Prop) (Gives : Record → α → Prop) :
    Prop where
  /-- Nothing is sent unless there is a statement. -/
  refused : ∀ fault, statement = .error fault → e.sent = [] ∧ e.outcome = .error fault
  sent : ∀ s, statement = .ok s → e.sent = [s]
  failed : ∀ s message, statement = .ok s → store s = .error (.store message) →
    ∃ error, e.outcome = .error (.query error) ∧ error.report.kind = .dataAccess ∧
      error.report.message = .text (request ++ " failed: " ++ message)
  shaped : ∀ s rows, statement = .ok s → store s = .ok rows → (∀ row ∈ rows, Carries row) →
    ∃ results, e.outcome = .ok results ∧ List.Forall₂ Gives rows results

namespace Execution

variable {α : Type} {store : Store} {request : String} {statement : Except Fault Statement}

/-- **An execution sends nothing but its statement, once.** Where there is no statement it sends
nothing and fails with the fault of the builder. -/
theorem reads_read {shape : Record → Except Fault α} {Carries : Record → Prop}
    {Gives : Record → α → Prop} (shapes : ∀ row, Carries row → ∃ a, shape row = .ok a)
    (gives : ∀ row a, shape row = .ok a → Gives row a) :
    (read store request statement shape).Reads store request statement Carries Gives where
  refused := by
    rintro fault rfl
    exact ⟨rfl, rfl⟩
  sent := by
    rintro s rfl
    rfl
  failed := by
    rintro s message rfl failure
    refine ⟨.storeFailed (request ++ " failed: " ++ message) [("statement", .text request)], ?_,
      rfl, rfl⟩
    show ((store s).require request _ >>= fun rows => rows.mapM shape) = _
    rw [failure]
    rfl
  shaped := by
    rintro s rows rfl replied carried
    obtain ⟨results, found⟩ :=
      Outcome.exists_mapM_eq_ok_iff.2 fun row hrow => shapes row (carried row hrow)
    refine ⟨results, ?_, (Outcome.mapM_eq_ok_iff.1 found).imp gives⟩
    show ((store s).require request _ >>= fun rows => rows.mapM shape) = _
    rw [replied]
    exact found

/-- Rows that are passed on as they are carry all that is asked of them. -/
theorem reads_rows :
    (read store request statement .ok).Reads store request statement (fun _ => True)
      fun row result => result = row :=
  reads_read (fun row _ => ⟨row, rfl⟩) fun _ _ h => (Except.ok.inj h).symm

end Execution

/-! ### What reshaping needs

Rows of comparisons and of slopes are taken apart by name. Measures may be missing, but the keys may
not: without them there is no saying what the row is about. -/

/-- The columns that a row of a comparison has to have to be reshaped. -/
def DeltaRow.keys : List String := ["insee_code", "year", "base_year"]

/-- A row that has its keys is reshaped, whatever is in them and whatever other columns it has. -/
theorem DeltaRow.exists_ofFlat {row : Record} (h : ∀ name ∈ keys, row.has name) (r : Relation) :
    ∃ d, ofFlat r row = .ok d := by
  have key {name : String} (hname : name ∈ keys) := Record.require_eq_getD (h name hname)
  rw [ofFlat, key (by decide), key (by decide), key (by decide)]
  exact ⟨_, rfl⟩

/-- The columns that a row of slopes has to have to be reshaped. -/
def SlopeRow.keys : List String := "insee_code" :: "year" :: "month" :: windowColumns

/-- A row that has its keys is reshaped. -/
theorem SlopeRow.exists_ofStored {row : Record} (h : ∀ name ∈ keys, row.has name) (r : Relation) :
    ∃ s, ofStored r row = .ok s := by
  have key {name : String} (hname : name ∈ keys) := Record.require_eq_getD (h name hname)
  rw [ofStored, key (by decide), key (by decide), key (by decide), key (by decide),
    key (by decide), key (by decide)]
  exact ⟨_, rfl⟩

/-! ### What an assistant has read

An assistant sends what it is asked to its language model, and reads what comes back with the reader
of the category. So the operation it ends up with is one that could have been read from the same
object without it. -/

/-- What is made of a reply is the object that it is. -/
theorem Completion.payload_eq_ok_iff {question : String} {reply : Except String (Option String)}
    {r : Record} : payload question reply = .ok r ↔
      ∃ text, reply = .ok (some text) ∧ Json.read text = .ok (.record r) := by
  constructor
  · intro h
    obtain message | _ | text := reply
    · cases h
    · cases h
    · have full : text ≠ "" := by
        rintro rfl
        cases h
      refine ⟨text, rfl, ?_⟩
      rw [payload, if_neg full] at h
      split at h
      · rename_i parsed
        rw [parsed, Except.ok.inj h]
      all_goals cases h
  · rintro ⟨text, rfl, parsed⟩
    have full : text ≠ "" := by
      rintro rfl
      cases parsed
    rw [payload, if_neg full, parsed]

namespace Assistant

variable {a : Assistant} {question : String} {category : Value} {o : Operation}

theorem operation_ofWord (c : Category) : a.operation question (.ofWord c) =
    match c.operation? with
    | none => ⟨[], .error (.assistant ⟨.noArguments c, question, ""⟩)⟩
    | some kind => (a.ask (.operation kind) question).andThen (readOperation kind question) := by
  unfold operation
  cases named : c.operation? <;> simp only [Vocabulary.require_ofWord, named]

theorem readOperation_eq_ok_iff {k : Operation.Kind} {payload : Record} :
    readOperation k question payload = .ok o ↔ k.read (.record payload) = .valid o := by
  rw [readOperation]
  cases k.read (.record payload) <;> simp

/-- An assistant has an operation for categories of a kind only. For all others it does not even ask
its language model. -/
theorem exists_kind_of_operation (h : (a.operation question category).outcome = .ok o) :
    ∃ k : Operation.Kind, category = .ofWord k.category := by
  by_cases named : ∃ c : Category, category = .ofWord c
  · obtain ⟨c, rfl⟩ := named
    rw [operation_ofWord] at h
    cases hk : c.operation? with
    | none =>
      rw [hk] at h
      nomatch h
    | some k => exact ⟨k, congrArg Value.ofWord (Category.operation?_eq_some_iff.1 hk).symm⟩
  · rw [operation, Vocabulary.require_eq_error (not_exists.1 named)] at h
    nomatch h

/-- **The operation of an assistant is that of its reply.** There is one exactly if the reply is an
object that is read as the arguments of the category's kind. -/
theorem operation_eq_ok_iff : (a.operation question category).outcome = .ok o ↔
    category = .ofWord o.kind.category ∧ ∃ text payload,
      a.model ⟨a.name, .operation o.kind, question⟩ = .ok (some text) ∧
      Json.read text = .ok (.record payload) ∧ o.kind.read (.record payload) = .valid o := by
  have asked (k : Operation.Kind) : (a.operation question (.ofWord k.category)).outcome = .ok o ↔
      ∃ payload, Completion.payload question (a.model ⟨a.name, .operation k, question⟩) =
        .ok payload ∧ k.read (.record payload) = .valid o := by
    rw [operation_ofWord, Operation.Kind.operation?_category]
    refine Outcome.bind_eq_ok_iff.trans (exists_congr fun payload => and_congr_right fun _ => ?_)
    exact readOperation_eq_ok_iff
  constructor
  · intro h
    obtain ⟨k, rfl⟩ := exists_kind_of_operation h
    obtain ⟨payload, replied, read⟩ := (asked k).1 h
    obtain rfl := Operation.kind_of_read read
    obtain ⟨text, replied, parsed⟩ := Completion.payload_eq_ok_iff.1 replied
    exact ⟨rfl, text, payload, replied, parsed, read⟩
  · rintro ⟨rfl, text, payload, replied, parsed, read⟩
    exact (asked o.kind).2 ⟨payload, Completion.payload_eq_ok_iff.2 ⟨text, replied, parsed⟩, read⟩

end Assistant

/-! ### What the store receives

All of it together: the three kinds of reads, the operations, categories with arguments, and
operations that an assistant has read. The statements are the ones that other modules are about. -/

/-- **What the store receives, for every kind of request.**

Reads of the three families and the operations send their own statement, or nothing. What a
category and arguments stand for is resolved first, and nothing is sent unless it is an operation,
which then is run. The operation that an assistant has read from a reply is run as the object of
the reply is. -/
theorem Execution.sends_complete_statements (store : Store) :
    (∀ s : FilterState, (s.fetch store).Reads store "rollup read" s.statement (fun _ => True)
      fun row result => result = row) ∧
    (∀ p : DeltaParams, (p.fetch store).Reads store "delta read" p.statement
      (fun row => ∀ name ∈ DeltaRow.keys, row.has name)
      fun row d => DeltaRow.ofFlat (Relation.delta p.level p.type) row = .ok d) ∧
    (∀ p : SlopeParams, (p.fetch store).Reads store "slope read" p.statement
      (fun row => ∀ name ∈ SlopeRow.keys, row.has name)
      fun row s => SlopeRow.ofStored (Relation.slope p.level p.type) row = .ok s) ∧
    (∀ o : Operation, (o.run store).Reads store o.kind.request o.statement (fun _ => True)
      fun row result => result = row) ∧
    (∀ category given, ∃ outcome, Operation.Resolves category given outcome ∧
      (∀ fault, outcome = .error fault → (ofGiven store category given).sent = [] ∧
        (ofGiven store category given).outcome = .error fault) ∧
      ∀ o, outcome = .ok o → (ofGiven store category given).Reads store o.kind.request o.statement
        (fun _ => True) fun row result => result = row) ∧
    ∀ (a : Assistant) question category o, (a.operation question category).outcome = .ok o →
      ∃ text payload, a.model ⟨a.name, .operation o.kind, question⟩ = .ok (some text) ∧
        Json.read text = .ok (.record payload) ∧
        ofGiven store category (.operation o) =
          ofGiven store category (.value (.record payload)) := by
  refine ⟨fun s => reads_rows, fun p => reads_read ?_ fun _ _ => id,
    fun p => reads_read ?_ fun _ _ => id, fun o => reads_rows, fun category given => ?_, ?_⟩
  · exact fun row h => DeltaRow.exists_ofFlat h _
  · exact fun row h => SlopeRow.exists_ofStored h _
  · refine ⟨_, Operation.resolves_ofGiven category given, fun fault refused => ?_,
      fun o found => ?_⟩
    · rw [ofGiven, refused]
      exact ⟨rfl, rfl⟩
    · rw [ofGiven, found]
      exact reads_rows
  · intro a question category o h
    obtain ⟨rfl, text, payload, replied, parsed, read⟩ := Assistant.operation_eq_ok_iff.1 h
    refine ⟨text, payload, replied, parsed, ?_⟩
    have same : Operation.ofGiven (.ofWord o.kind.category) (.operation o) =
        Operation.ofGiven (.ofWord o.kind.category) (.value (.record payload)) := by
      rw [Operation.ofGiven_operation, if_pos rfl, Operation.ofGiven_record, read]
      rfl
    rw [ofGiven, ofGiven, same]

/-! ### A store that is out of reach -/

namespace Execution

/-- A reply that asks for five sales. -/
def fiveSales : String := "\x7b\"limit\": 5\x7d"

/-- An assistant whose language model always replies that. -/
def askingFiveSales : Assistant := ⟨fun _ => .ok (some fiveSales), ""⟩

/-- What the assistant reads from it. -/
def queryFiveSales : Operation := .query { limit := some 5 }

theorem read_fiveSales : Json.read fiveSales = .ok (.record [("limit", .int 5)]) := by
  dsimp only [Json.read, fiveSales, String.reduceToList]
  rfl

/-- A store that is out of reach. -/
def unreachable : Store := fun _ => .error (.store "no connection")

/-- The operation of the assistant is sent as its reply is, and the store's failure is reported. -/
theorem sends_complete_statements_fiveSales :
    (askingFiveSales.operation "" (.ofWord Category.query)).outcome = .ok queryFiveSales ∧
    (∃ text payload, askingFiveSales.model ⟨"", .operation .query, ""⟩ = .ok (some text) ∧
      Json.read text = .ok (.record payload) ∧
      ofGiven unreachable (.ofWord Category.query) (.operation queryFiveSales) =
        ofGiven unreachable (.ofWord Category.query) (.value (.record payload))) ∧
    ∃ s, queryFiveSales.statement = .ok s ∧ (queryFiveSales.run unreachable).sent = [s] ∧
      ∃ error, (queryFiveSales.run unreachable).outcome = .error (.query error) ∧
        error.report.kind = .dataAccess ∧
        error.report.message = .text "transactions query failed: no connection" := by
  obtain ⟨-, -, -, runs, -, assistants⟩ := sends_complete_statements unreachable
  have asked : (askingFiveSales.operation "" (.ofWord Category.query)).outcome =
      .ok queryFiveSales :=
    Assistant.operation_eq_ok_iff.2 ⟨rfl, _, _, rfl, read_fiveSales, rfl⟩
  obtain ⟨s, hs⟩ : ∃ s, queryFiveSales.statement = .ok s := ⟨_, rfl⟩
  exact ⟨asked, assistants askingFiveSales "" _ queryFiveSales asked, s, hs,
    (runs queryFiveSales).sent s hs, (runs queryFiveSales).failed s _ hs rfl⟩

end Execution

end PropertyMarket
