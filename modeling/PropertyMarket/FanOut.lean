import PropertyMarket.Fault

/-!
# Concurrent jobs

Independent jobs run side by side, no more than a number of them at a time. A caller gathers their
results. When a job fails, the caller is told of the failure; it then cancels the jobs, waits until
all of them have come to an end, and goes on with that failure.

## Main definitions

* `FanOut.State`, `FanOut.Event`, `FanOut.step` — where jobs and caller stand, and what can happen
* `FanOut.run` — what a sequence of events leads to
* `FanOut.State.outcome?` — what the caller goes on with: the results of all jobs, or a failure
* `FanOut.inTurn` — the events of jobs that take turns in their order

## Implementation notes

A sequence of events is any order in which jobs start and end and in which the caller gets its
turn, so a statement about all sequences is one about all schedules. Room is kept as permits, of
which a job takes one when it starts and gives it back when it ends, in whatever way. Between a
failure and the next turn of the caller, other jobs may still start, end, or fail as well. A job
that is cancelled while it runs may also come to an end of its own.
-/

namespace PropertyMarket

namespace FanOut

/-! ### Room

How many jobs may be under way at a time. The number comes from a call or from the settings and may
be anything, so it is made sense of here, once, and from then on it is a natural number. -/

/-- How many jobs run at a time if nothing else is asked for. -/
def usualWidth : Nat := 4

/-- How many of a number of jobs run at a time: as many as are asked for, or the usual number in
place of what counts as false. What is asked for is used up one by one, so that a number which is
not whole is never used up and leaves room for all jobs. -/
def width (given : Value) (jobs : Nat) : Except Fault Nat :=
  if given.truthy then do
    let n ← given.requireNumber
    if n.lt (.int 0) then .error (.unusable .negativeConcurrency)
    else return (n.toInt?.map Int.toNat).getD jobs
  else .ok usualWidth

/-! ### States and events

A state holds where each job stands, and the caller beside them. `step` says for each event when it
can happen and what it changes; an event that cannot happen has no next state. That is all that is
assumed about the scheduler. -/

/-- Where a job stands. It waits, runs, and comes to one of three ends. -/
inductive Job (ε α : Type) where
  | waiting
  | running
  | done (result : α)
  | failed (error : ε)
  | cancelled
  deriving Repr

namespace Job

variable {ε α : Type}

/-- Is the job under way? A job that waits for room is not. -/
def isRunning : Job ε α → Bool
  | .running => true
  | _ => false

/-- Has the job come to an end, of whatever kind? -/
def isEnded : Job ε α → Bool
  | .waiting | .running => false
  | _ => true

/-- What the job resulted in. -/
def result? : Job ε α → Option α
  | .done a => some a
  | _ => none

end Job

/-- What the caller of the jobs does. It gathers, unwinds after a failure, and then goes on, either
with the results or with the failure. -/
inductive Caller (ε α : Type) where
  /-- It waits for the results. -/
  | gathering
  /-- It has cancelled the jobs because of a failure, and waits until they have ended. -/
  | unwinding (error : ε)
  /-- It has gone on with the results. -/
  | returned (results : List α)
  /-- It has gone on with the failure. -/
  | raised (error : ε)
  deriving Repr

/-- Where all jobs stand, how many more may start, which failure came first, and what the caller
does. The permits and the jobs under way always add up to the width. -/
structure State (ε α : Type) where
  jobs : List (Job ε α)
  permits : Nat
  failure : Option ε
  caller : Caller ε α
  deriving Repr

/-- What can happen, mostly to the job at a position. -/
inductive Event where
  | start (position : Nat)
  /-- The job ends, with its result or its error. -/
  | finish (position : Nat)
  /-- The job ends because it has been cancelled. -/
  | cancel (position : Nat)
  /-- The caller gets its turn. -/
  | resume
  deriving DecidableEq, Repr

variable {ε α : Type}

namespace State

/-- All of `n` jobs are waiting, and none is under way. All permits are free. -/
def initial (width n : Nat) : State ε α := ⟨List.replicate n .waiting, width, none, .gathering⟩

/-- How many jobs are under way: the number that the width bounds. -/
def running (s : State ε α) : Nat := s.jobs.countP Job.isRunning

/-- Have all jobs come to an end? -/
def allEnded (s : State ε α) : Bool := s.jobs.all Job.isEnded

/-- What the caller has gone on with, if it has. Before that there is no outcome, whatever the jobs
have resulted in. -/
def outcome? (s : State ε α) : Option (Except ε (List α)) :=
  match s.caller with
  | .returned results => some (.ok results)
  | .raised e => some (.error e)
  | .gathering | .unwinding _ => none

end State

/-- The state after an event, if the event can happen. The list holds what each job results in: the
schedule decides when a job ends, and not with what. -/
def step (results : List (Except ε α)) (s : State ε α) : Event → Option (State ε α)
  | .start i =>
    match s.caller, s.jobs[i]?, s.permits with
    | .gathering, some .waiting, permits + 1 =>
      some { s with jobs := s.jobs.set i .running, permits }
    | _, _, _ => none
  | .finish i =>
    match s.jobs[i]?, results[i]? with
    | some .running, some (.ok a) =>
      some { s with jobs := s.jobs.set i (.done a), permits := s.permits + 1 }
    | some .running, some (.error e) =>
      some { s with
        jobs := s.jobs.set i (.failed e)
        permits := s.permits + 1
        failure := s.failure.or (some e) }
    | _, _ => none
  | .cancel i =>
    match s.caller, s.jobs[i]? with
    | .unwinding _, some .waiting => some { s with jobs := s.jobs.set i .cancelled }
    | .unwinding _, some .running =>
      some { s with jobs := s.jobs.set i .cancelled, permits := s.permits + 1 }
    | _, _ => none
  | .resume =>
    match s.caller, s.failure with
    | .gathering, some e => some { s with caller := .unwinding e }
    | .gathering, none =>
      if s.allEnded then some { s with caller := .returned (s.jobs.filterMap Job.result?) }
      else none
    | .unwinding e, _ => if s.allEnded then some { s with caller := .raised e } else none
    | .returned _, _ | .raised _, _ => none

/-! ### Runs

A run is a list of events, each of which can happen where it stands. A schedule is such a list, so
what holds of all lists that run to an end holds of all schedules. -/

/-- The state after a sequence of events, if each of them can happen. One event out of place makes
it no run at all. -/
def run (results : List (Except ε α)) (s : State ε α) : List Event → Option (State ε α)
  | [] => some s
  | e :: events => (step results s e).bind fun next => run results next events

/-- The outcome of a sequence of events, if the caller has gone on by then. It is nothing as well if
the events are no run. -/
def outcome? (width : Nat) (results : List (Except ε α)) (events : List Event) :
    Option (Except ε (List α)) :=
  (run results (State.initial width results.length) events).bind State.outcome?

/-- The greatest number of jobs under way at a time in a sequence of events, the states before and
after all of them included. -/
def peak (results : List (Except ε α)) (s : State ε α) : List Event → Nat
  | [] => s.running
  | e :: events =>
    match step results s e with
    | some next => max s.running (peak results next events)
    | none => s.running

/-- The positions of the jobs, in the order in which they start. -/
def starts (events : List Event) : List Nat :=
  events.filterMap fun
    | .start i => some i
    | _ => none

/-- The events of `n` jobs that take turns: as many as there is room for start, and whenever the
oldest one ends the next one starts. The caller's last turn is not part of it. -/
def inTurn (width n : Nat) : List Event :=
  (List.range (min width n)).map Event.start ++
    (List.range n).flatMap fun i =>
      Event.finish i :: if i + width < n then [Event.start (i + width)] else []

end FanOut

end PropertyMarket
