import PropertyMarket.Compile.Select

/-!
# Operations over the raw sales

A question that asks for sales is answered by one of three operations: a query for single sales,
aggregates of groups, or named computations of groups. The category of the question says which.

## Main definitions

* `Operation.Kind`, `Category.operation?` — the kinds of operations, and the kind of a category
* `Operation` — an operation with its arguments
* `Operation.Kind.read`, `Operation.statement` — reading arguments, and the statement they become

## Implementation notes

The three operations differ in the model of their arguments and in the builder of their statement,
and in nothing else: how they are read, sent and reported is the same for all of them and is defined
once, by the kind. A category that no operation answers is no failure here; whoever has to run one
decides what it means.
-/

namespace PropertyMarket

/-! ### Kinds

A kind is the part of an operation that is known before its arguments: the model they have to fit,
and the words with which it is reported. -/

/-- The kinds of operations: single sales, aggregates of groups, and named computations of
groups. -/
inductive Operation.Kind where
  | query
  | aggregate
  | calculate
  deriving DecidableEq, Repr

/-- The kind of operation that answers questions of a category, if there is one. The other
categories are answered in words. -/
def Category.operation? : Category → Option Operation.Kind
  | .query => some .query
  | .aggregate => some .aggregate
  | .calculate => some .calculate
  | _ => none

namespace Operation.Kind

/-- The categories of questions that an operation answers. -/
def categories : List Category :=
  (Vocabulary.members (α := Category)).filter fun c => c.operation?.isSome

/-- The category of the questions that an operation answers. By the lemma below, that category leads
back to the operation. -/
def category : Kind → Category
  | .query => .query
  | .aggregate => .aggregate
  | .calculate => .calculate

@[simp] theorem operation?_category (k : Kind) : k.category.operation? = some k := by
  cases k <;> rfl

/-- The model of the arguments, by the name under which arguments that do not fit it are
reported. -/
def model : Kind → String
  | .query => "QueryArgs"
  | .aggregate => "AggregationArgs"
  | .calculate => "ComputationArgs"

/-- What is asked of the store, in the words of the message when it fails. -/
def request : Kind → String
  | .query => "transactions query"
  | .aggregate => "transactions aggregation"
  | .calculate => "transactions computation"

end Operation.Kind

/-! ### Operations

An operation holds arguments that have been checked against the model of its kind, so from here on
it always has arguments that fit. Its statement may still be refused, for a field that is not known
or may not be used so. -/

/-- An operation with its arguments. The constructor is the kind, so arguments of another kind
cannot go with it. -/
inductive Operation where
  | query (args : QueryArgs)
  | aggregate (args : AggregationArgs)
  | calculate (args : ComputationArgs)

namespace Operation

/-- The kind of an operation. -/
def kind : Operation → Kind
  | .query _ => .query
  | .aggregate _ => .aggregate
  | .calculate _ => .calculate

/-- The operation of a kind with arguments that are read from a value, or the issues with them. -/
def Kind.read (k : Kind) (value : Value) : Checked Operation :=
  match k with
  | .query => Operation.query <$> QueryArgs.read value
  | .aggregate => Operation.aggregate <$> AggregationArgs.read value
  | .calculate => Operation.calculate <$> ComputationArgs.read value

/-- The statement of an operation, or the fault for which none is built. -/
def statement : Operation → Except Fault Statement
  | .query args => args.statement
  | .aggregate args => args.statement
  | .calculate args => args.statement

/-- The arguments as a record. -/
def toRecord (naming : Naming) : Operation → Record
  | .query args => args.toRecord naming
  | .aggregate args => args.toRecord naming
  | .calculate args => args.toRecord naming

end Operation

end PropertyMarket
