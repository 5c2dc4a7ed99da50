import PropertyMarket.Fault
import PropertyMarket.Statement

/-!
# What a store answers

A store is only known by its replies: a statement is sent, and rows come back, or a failure. A
failure of the store itself is reported with what was asked of it; any other one is passed on.

## Main definitions

* `StoreFailure` — why there are no rows
* `Reply` — what a store answers to a statement
* `Reply.require` — the answer, or the fault of a failure
* `Store` — a store by its replies

## Implementation notes

A store is a function from statements to replies, with no state: a run asks it a finite number of
statements, and nothing is assumed about how the answers to two of them are related. Whatever is
proved of an execution therefore holds of every store, of one that fails now and then as well as of
one that changes between two statements. Where a statement is given a meaning, the store that
answers by that meaning is one such function.
-/

namespace PropertyMarket

/-- Why a store has no rows to give. The two reasons are told apart because they are reported
differently: a failure of the store becomes the fault of a query, with what was asked for, and a
failure of anything else is handed on with its own message. -/
inductive StoreFailure where
  /-- The store refuses the statement, or is out of reach. -/
  | store (message : String)
  /-- Something else fails on the way. -/
  | service (message : String)
  deriving DecidableEq, Repr

/-- The fault of a failure, with what was asked of the store: the kind of request in the message,
and its details in the record that goes with it. -/
def StoreFailure.fault (request : String) (details : Record) : StoreFailure → Fault
  | .store message => .query (.storeFailed (request ++ " failed: " ++ message) details)
  | .service message => .service message

/-- What a store answers to a statement. -/
abbrev Reply (α : Type) := Except StoreFailure α

/-- The answer of a store, or the fault of its failure. Rows pass unchanged. -/
def Reply.require {α : Type} (request : String) (details : Record) (reply : Reply α) :
    Except Fault α :=
  reply.mapError (StoreFailure.fault request details)

/-- A store by its replies: for each statement the rows, in the order in which they come back, or a
failure. -/
abbrev Store := Statement → Reply (List Record)

end PropertyMarket
