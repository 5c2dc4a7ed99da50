import PropertyMarket.Delta
import PropertyMarket.Operation
import PropertyMarket.Slope
import PropertyMarket.Store

/-!
# Executions

A request is executed by sending its statement to the store and shaping the rows that come back.
Nothing is sent unless the statement is complete, and nothing is sent twice.

## Main definitions

* `Execution` — what is sent to the store, and what comes of it
* `FilterState.fetch`, `DeltaParams.fetch`, `SlopeParams.fetch` — reads of precomputed relations
* `Operation.run` — an operation over the raw sales
* `Execution.ofArguments` — the operation of a category, with arguments that are still to be read
* `Execution.ofGiven` — the same, where the arguments may have been read before

## Implementation notes

An execution shows the list of what was sent beside its outcome, since what a caller relies on is
both of them: a request that is refused must not have reached the store. All entry points go through
`Execution.read`, which is the only place where a store is asked; so what is proved of it holds of
every one of them. The model says nothing of sessions and transactions, which no outcome depends on.
-/

namespace PropertyMarket

/-- What is sent to the store, and what comes of it. The list is in the order of sending. -/
structure Execution (α : Type) where
  sent : List Statement
  outcome : Except Fault α

namespace Execution

variable {α : Type}

/-- An execution that fails before anything is sent. The store is not part of it. -/
def refused (fault : Fault) : Execution α := ⟨[], .error fault⟩

/-- Sends a statement and shapes each row of the reply. A statement that is a fault is not sent; a
row that cannot be shaped is a fault after the sending, and the rows before it are not returned. -/
def read (store : Store) (request : String) (statement : Except Fault Statement)
    (shape : Record → Except Fault α) : Execution (List α) :=
  match statement with
  | .error fault => refused fault
  | .ok s =>
    ⟨[s], do
      let rows ← (store s).require request [("statement", .text request)]
      rows.mapM shape⟩

end Execution

/-! ### Reads of precomputed relations

Each read has its statement and its shape of rows. The rows of a rollup are returned as they come,
and those of the other two families are reshaped, which may fail on a row that lacks a column of its
key. -/

/-- The rows of a rollup, unchanged and in the order of the reply. -/
def FilterState.fetch (store : Store) (s : FilterState) : Execution (List Record) :=
  Execution.read store "rollup read" s.statement .ok

/-- The rows of a yearly comparison, with nested comparisons, one for each row of the reply. -/
def DeltaParams.fetch (store : Store) (p : DeltaParams) : Execution (List DeltaRow) :=
  Execution.read store "delta read" p.statement (DeltaRow.ofFlat (Relation.delta p.level p.type))

/-- The rows of the slopes, one for each row of the reply. -/
def SlopeParams.fetch (store : Store) (p : SlopeParams) : Execution (List (SlopeRow Value)) :=
  Execution.read store "slope read" p.statement (SlopeRow.ofStored (Relation.slope p.level p.type))

/-! ### Operations over the raw sales

The category and the arguments come from outside and are checked in this order: is the category one
at all, does an operation answer it, do the arguments fit its model. Only then is there an
operation, and only an operation has a statement. -/

/-- The rows of an operation. What was asked of the store, for the message, depends on the kind
only. -/
def Operation.run (store : Store) (o : Operation) : Execution (List Record) :=
  Execution.read store o.kind.request o.statement .ok

/-- The operation that arguments of a category stand for. Arguments that are no record are refused
in another way than arguments that do not fit. -/
def Operation.ofArguments (category arguments : Value) : Except Fault Operation := do
  let c : Category ← Vocabulary.require category
  match c.operation?, arguments with
  | none, _ => .error (.query (.notExecutable c Kind.categories))
  | some k, .record r => (k.read (.record r)).orFault k.model
  | some _, _ => .error .notArguments

/-- Runs the operation that arguments of a category stand for; nothing is sent if they stand for
none. -/
def Execution.ofArguments (store : Store) (category arguments : Value) :
    Execution (List Record) :=
  match Operation.ofArguments category arguments with
  | .ok o => o.run store
  | .error fault => refused fault

/-- What is given for arguments: a value that is still to be read, or an operation that has been. -/
inductive Given where
  | value (value : Value)
  | operation (operation : Operation)

/-- The operation that a category and what is given for arguments stand for. An operation of
another kind than that of the category lacks its arguments. -/
def Operation.ofGiven (category : Value) : Given → Except Fault Operation
  | .value v => Operation.ofArguments category v
  | .operation o => do
    let c : Category ← Vocabulary.require category
    match c.operation? with
    | none => .error (.query (.notExecutable c Kind.categories))
    | some k => if o.kind = k then .ok o else .error .notArguments

/-- Runs the operation that a category and what is given for arguments stand for. Arguments that
have been read before are sent as the same statement as the value they were read from. -/
def Execution.ofGiven (store : Store) (category : Value) (given : Given) :
    Execution (List Record) :=
  match Operation.ofGiven category given with
  | .ok o => o.run store
  | .error fault => refused fault

end PropertyMarket
