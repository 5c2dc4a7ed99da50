import Mathlib.Data.List.Induction
import Mathlib.Tactic.Common
import PropertyMarket.FanOut
import PropertyMarket.Proofs.Outcome

/-!
# Concurrent jobs under any schedule

Whatever the order in which jobs start, end, fail and are cancelled, and whenever their caller gets
its turn, no more jobs run at a time than there is room for, no job waits forever, and the caller
goes on either with the results of all jobs in their order or with the failure that came first,
once no job is under way any more.

The proof says once what an event does (`FanOut.Move`), and what the state of a fan-out has to do
with the events that led to it (`FanOut.Consistent`). That every event keeps the second is checked
one field at a time. That an outcome is always in reach needs a state that is not settled to allow
some event, and a measure that every event lowers.

## Main definitions

* `FanOut.Move` — what an event does to a state
* `FanOut.firstFailure` — the failure that comes first in a sequence of events
* `FanOut.Consistent` — what every reachable state has to do with the events before it
* `FanOut.State.left` — how many events can still happen, at most

## Main results

* `FanOut.consistent_of_run` — every reachable state is consistent
* `FanOut.Consistent.exists_step` — a state without an outcome is not stuck
* `FanOut.Consistent.exists_outcome` — an outcome is in reach from every reachable state
* `FanOut.outcome?_eq` — the outcome is the first failure, or the results of all jobs
* `FanOut.exists_events` — trying one job after the other is a schedule
-/

namespace PropertyMarket.FanOut

variable {ε α : Type} {results : List (Except ε α)} {s s' : State ε α} {events past : List Event}

/-! ### What an event does

One constructor for each way in which an event changes a state, with the conditions under which it
can happen. All invariants are proved by cases on this relation. -/

/-- What an event does to a state in which it can happen. An event that is not listed for a state
cannot happen there. -/
inductive Move (results : List (Except ε α)) (s : State ε α) : Event → State ε α → Prop where
  | start {i permits : ℕ} (gathering : s.caller = .gathering) (waits : s.jobs[i]? = some .waiting)
    (room : s.permits = permits + 1) :
    Move results s (.start i) { s with jobs := s.jobs.set i .running, permits }
  | succeed {i : ℕ} {a : α} (runs : s.jobs[i]? = some .running)
    (result : results[i]? = some (.ok a)) :
    Move results s (.finish i) { s with jobs := s.jobs.set i (.done a), permits := s.permits + 1 }
  | fail {i : ℕ} {e : ε} (runs : s.jobs[i]? = some .running)
    (result : results[i]? = some (.error e)) :
    Move results s (.finish i) { s with
      jobs := s.jobs.set i (.failed e), permits := s.permits + 1, failure := s.failure.or (some e) }
  | withdraw {i : ℕ} {e : ε} (unwinding : s.caller = .unwinding e)
    (waits : s.jobs[i]? = some .waiting) :
    Move results s (.cancel i) { s with jobs := s.jobs.set i .cancelled }
  | interrupt {i : ℕ} {e : ε} (unwinding : s.caller = .unwinding e)
    (runs : s.jobs[i]? = some .running) :
    Move results s (.cancel i) { s with jobs := s.jobs.set i .cancelled, permits := s.permits + 1 }
  | notice {e : ε} (gathering : s.caller = .gathering) (failure : s.failure = some e) :
    Move results s .resume { s with caller := .unwinding e }
  | deliver (gathering : s.caller = .gathering) (failure : s.failure = none)
    (ended : s.allEnded = true) :
    Move results s .resume { s with caller := .returned (s.jobs.filterMap Job.result?) }
  | raise {e : ε} (unwinding : s.caller = .unwinding e) (ended : s.allEnded = true) :
    Move results s .resume { s with caller := .raised e }

theorem Move.step_eq {event : Event} (h : Move results s event s') :
    step results s event = some s' := by
  cases h <;> simp_all [step]

theorem move_of_step {event : Event} (h : step results s event = some s') :
    Move results s event s' := by
  unfold step at h
  split at h
  · split at h
    · next gathering waits room => cases h; exact .start gathering waits room
    · cases h
  · split at h
    · next runs result => cases h; exact .succeed runs result
    · next runs result => cases h; exact .fail runs result
    · cases h
  · split at h
    · next unwinding waits => cases h; exact .withdraw unwinding waits
    · next unwinding runs => cases h; exact .interrupt unwinding runs
    · cases h
  · split at h
    · next gathering failure => cases h; exact .notice gathering failure
    · next gathering failure =>
      split at h
      · next ended => cases h; exact .deliver gathering failure ended
      · cases h
    · next unwinding =>
      split at h
      · next ended => cases h; exact .raise unwinding ended
      · cases h
    all_goals cases h

/-! ### One job in its place

Every event but the turns of the caller changes one job. How the counts and the entries of the list
of jobs change with it is said here once. -/

/-- Jobs are counted anew after one of them has changed. -/
theorem countP_set {jobs : List (Job ε α)} {i : ℕ} {old : Job ε α} (h : jobs[i]? = some old)
    (p : Job ε α → Bool) (new : Job ε α) :
    (jobs.set i new).countP p + (p old).toNat = jobs.countP p + (p new).toNat := by
  induction jobs generalizing i with
  | nil => cases h
  | cons job jobs ih =>
    cases i with
    | zero =>
      obtain rfl : job = old := by simpa using h
      rw [List.set_cons_zero, List.countP_cons, List.countP_cons]
      cases p new <;> cases p job <;> simp
    | succ i =>
      have rest := ih (i := i) (by simpa using h)
      rw [List.set_cons_succ, List.countP_cons, List.countP_cons]
      omega

/-- A job after one of them has changed. -/
theorem eq_or_getElem?_of_set {jobs : List (Job ε α)} {i k : ℕ} {new job : Job ε α}
    (h : (jobs.set i new)[k]? = some job) : (i = k ∧ new = job) ∨ jobs[k]? = some job := by
  rw [List.getElem?_set] at h
  split at h
  · split at h
    · exact .inl ⟨‹_›, Option.some.inj h⟩
    · cases h
  · exact .inr h

/-- Jobs that are all done have their results in their order. -/
theorem results_eq_map_ok {jobs : List (Job ε α)} {results : List (Except ε α)}
    (length : jobs.length = results.length)
    (done : ∀ (i : ℕ) (a : α), jobs[i]? = some (.done a) → results[i]? = some (.ok a))
    (all : ∀ job ∈ jobs, job.result?.isSome) :
    results = (jobs.filterMap Job.result?).map .ok := by
  induction jobs generalizing results with
  | nil => exact List.eq_nil_of_length_eq_zero length.symm
  | cons job jobs ih =>
    cases results with
    | nil => cases length
    | cons result results =>
      have tail : results = (jobs.filterMap Job.result?).map .ok :=
        ih (by simpa using length) (fun i a h => by simpa using done (i + 1) a (by simpa using h))
          fun job h => all job (List.mem_cons_of_mem _ h)
      cases job with
      | done a =>
        have head : result = .ok a := by simpa using done 0 a rfl
        rw [List.filterMap_cons, Job.result?, List.map_cons, ← tail, head]
      | _ => exact absurd (all _ List.mem_cons_self) (by simp [Job.result?])

/-! ### What the events have to do with the state

The state does not record what has happened, so the invariant takes the past events as an argument.
Its fields say what each part of the state has to be, given these events and the results that the
jobs would have. -/

/-- The failure that comes first in a sequence of events, which is that of the first job that ends
in one. -/
def firstFailure (results : List (Except ε α)) (events : List Event) : Option ε :=
  events.findSome? fun
    | .finish i =>
      match results[i]? with
      | some (.error e) => some e
      | _ => none
    | _ => none

theorem firstFailure_append (results : List (Except ε α)) (past events : List Event) :
    firstFailure results (past ++ events) =
      (firstFailure results past).or (firstFailure results events) := by
  rw [firstFailure, List.findSome?_append]
  rfl

/-- What the state of `width` jobs at a time has to do with the events that led to it. It holds at
the beginning, and each event keeps it. -/
structure Consistent (width : ℕ) (results : List (Except ε α)) (past : List Event)
    (s : State ε α) : Prop where
  length : s.jobs.length = results.length
  /-- A permit is either free or with a job that is under way. -/
  permits : s.running + s.permits = width
  done : ∀ (i : ℕ) (a : α), s.jobs[i]? = some (.done a) → results[i]? = some (.ok a)
  failure : s.failure = firstFailure results past
  /-- As long as nothing has failed, a job only ends by being done. -/
  kept : s.failure = none → ∀ job ∈ s.jobs, job.isEnded → job.result?.isSome
  unwinding : ∀ e, s.caller = .unwinding e → s.failure = some e
  returned : ∀ values, s.caller = .returned values →
    s.allEnded ∧ s.failure = none ∧ results = values.map .ok
  raised : ∀ e, s.caller = .raised e → s.allEnded ∧ s.failure = some e

theorem consistent_initial (width : ℕ) (results : List (Except ε α)) :
    Consistent width results [] (.initial width results.length) where
  length := by simp [State.initial]
  permits := by simp [State.initial, State.running, List.countP_replicate, Job.isRunning]
  done i a h := by simp [State.initial, List.getElem?_replicate] at h
  failure := rfl
  kept _ job hjob ended := by
    rw [List.eq_of_mem_replicate hjob] at ended
    cases ended
  unwinding _ h := by cases h
  returned _ h := by cases h
  raised _ h := by cases h

theorem State.isEnded_of_allEnded (h : s.allEnded = true) {i : ℕ} {job : Job ε α}
    (found : s.jobs[i]? = some job) : job.isEnded = true :=
  List.all_eq_true.1 h job (List.mem_of_getElem? found)

/-- A job that has not ended gets on. This is the common part of starting, ending, failing and
cancelling, which only differ in the new state of the job. -/
theorem Consistent.set {width : ℕ} (h : Consistent width results past s) {i permits : ℕ}
    {old new : Job ε α} {failure : Option ε} {event : Event} (found : s.jobs[i]? = some old)
    (unended : old.isEnded = false)
    (permits_eq : permits + new.isRunning.toNat = s.permits + old.isRunning.toNat)
    (done : ∀ a, new = .done a → results[i]? = some (.ok a))
    (failure_eq : failure = s.failure.or (firstFailure results [event]))
    (kept : failure = none → new.isEnded → new.result?.isSome) :
    Consistent width results (past ++ [event])
      { s with jobs := s.jobs.set i new, permits, failure } := by
  have unsettled : s.allEnded ≠ true := fun ended => by
    rw [State.isEnded_of_allEnded ended found] at unended
    cases unended
  have earlier {e : ε} (he : s.failure = some e) : failure = some e := by
    rw [failure_eq, he, Option.some_or]
  exact {
    length := by rw [List.length_set, h.length]
    permits := by
      have counted := countP_set found Job.isRunning new
      have before := h.permits
      simp only [State.running] at before ⊢
      omega
    done := fun k a hk => by
      obtain ⟨rfl, hnew⟩ | hk := eq_or_getElem?_of_set hk
      · exact done a hnew
      · exact h.done k a hk
    failure := by rw [failure_eq, h.failure, firstFailure_append]
    kept := fun none job hjob ended => by
      obtain hjob | rfl := List.mem_or_eq_of_mem_set hjob
      · exact h.kept (Option.or_eq_none_iff.1 (failure_eq ▸ none)).1 job hjob ended
      · exact kept none ended
    unwinding := fun e he => earlier (h.unwinding e he)
    returned := fun values hv => absurd (h.returned values hv).1 unsettled
    raised := fun e he => absurd (h.raised e he).1 unsettled }

/-- Every event keeps a state consistent. -/
theorem Consistent.move {width : ℕ} (h : Consistent width results past s) {event : Event}
    (m : Move results s event s') : Consistent width results (past ++ [event]) s' := by
  have unchanged : s.failure = s.failure.or none := by simp
  -- The events of jobs first, then the turns of the caller.
  cases m with
  | start gathering waits room =>
    exact h.set waits rfl (by rw [room]; rfl) (fun a ha => by cases ha) unchanged
      fun _ ended => by cases ended
  | succeed runs result =>
    refine h.set runs rfl (by simp [Job.isRunning]) (fun a ha => ?_) ?_ fun _ _ => rfl
    · cases ha
      exact result
    · simp [firstFailure, result]
  | fail runs result =>
    refine h.set runs rfl (by simp [Job.isRunning]) (fun a ha => by cases ha) ?_ fun none => ?_
    · simp [firstFailure, result]
    · simp at none
  | withdraw unwinding waits =>
    refine h.set waits rfl rfl (fun a ha => by cases ha) unchanged fun none => ?_
    rw [h.unwinding _ unwinding] at none
    cases none
  | interrupt unwinding runs =>
    refine h.set runs rfl (by simp [Job.isRunning]) (fun a ha => by cases ha) unchanged
      fun none => ?_
    rw [h.unwinding _ unwinding] at none
    cases none
  | notice gathering failure =>
    exact { h with
      failure := by rw [firstFailure_append, ← h.failure]; exact unchanged
      unwinding := fun e he => by cases he; exact failure
      returned := fun _ hv => by cases hv
      raised := fun _ he => by cases he }
  | deliver gathering failure ended =>
    exact { h with
      failure := by rw [firstFailure_append, ← h.failure]; exact unchanged
      unwinding := fun _ he => by cases he
      returned := fun values hv => by
        cases hv
        have all : ∀ job ∈ s.jobs, job.result?.isSome := fun job hjob =>
          h.kept failure job hjob (List.all_eq_true.1 ended job hjob)
        exact ⟨ended, failure, results_eq_map_ok h.length h.done all⟩
      raised := fun _ he => by cases he }
  | raise unwinding ended =>
    exact { h with
      failure := by rw [firstFailure_append, ← h.failure]; exact unchanged
      unwinding := fun _ he => by cases he
      returned := fun _ hv => by cases hv
      raised := fun e he => by
        cases he
        exact ⟨ended, h.unwinding _ unwinding⟩ }

/-! ### Runs

A run is a list of events each of which can happen where it stands. What every event keeps, every
run keeps. -/

theorem run_cons_eq_some {event : Event} (h : run results s (event :: events) = some s') :
    ∃ next, step results s event = some next ∧ run results next events = some s' :=
  Option.bind_eq_some_iff.1 h

theorem run_append (s : State ε α) (events more : List Event) :
    run results s (events ++ more) = (run results s events).bind (run results · more) := by
  induction events generalizing s with
  | nil => rfl
  | cons event events ih =>
    rw [List.cons_append, run, run, Option.bind_assoc]
    exact congrArg _ (funext fun next => ih next)

theorem Consistent.run {width : ℕ} (h : Consistent width results past s)
    (hrun : run results s events = some s') :
    Consistent width results (past ++ events) s' := by
  induction events generalizing s past with
  | nil =>
    cases hrun
    rwa [List.append_nil]
  | cons event events ih =>
    obtain ⟨next, hstep, hrun⟩ := run_cons_eq_some hrun
    rw [List.append_cons]
    exact ih (h.move (move_of_step hstep)) hrun

/-- **Every reachable state is consistent with the events that led to it.** The proof goes by one
step at a time: an event that can happen leads from a consistent state to one that is consistent
with one more event. -/
theorem consistent_of_run {width : ℕ}
    (hrun : FanOut.run results (.initial width results.length) events = some s) :
    Consistent width results events s :=
  (consistent_initial width results).run hrun

/-! ### Outcomes are in reach

There are finitely many events left at any time, and as long as there is no outcome one of them can
happen. So going on in any way leads to an outcome. -/

/-- How many turns the caller still takes, at most: it gathers, unwinds, and is done. -/
def Caller.left : Caller ε α → ℕ
  | .gathering => 2
  | .unwinding _ => 1
  | .returned _ | .raised _ => 0

/-- How many events can still happen, at most: a waiting job starts and ends, and a job that is
under way ends. -/
def State.left (s : State ε α) : ℕ :=
  s.jobs.countP (fun job => !job.isEnded) +
    s.jobs.countP (fun job => !job.isEnded && !job.isRunning) + s.caller.left

/-- A job that ends, or starts, leaves fewer events. -/
theorem State.left_set_lt {i permits : ℕ} {old new : Job ε α} {failure : Option ε}
    (found : s.jobs[i]? = some old) (unended : old.isEnded = false)
    (moved : new.isEnded = true ∨ old.isRunning = false ∧ new.isRunning = true) :
    State.left { s with jobs := s.jobs.set i new, permits, failure } < s.left := by
  have counted := countP_set found (fun job => !job.isEnded) new
  have waiting := countP_set found (fun job => !job.isEnded && !job.isRunning) new
  rw [unended] at counted waiting
  simp only [State.left]
  obtain ended | ⟨waits, runs⟩ := moved
  · rw [ended] at counted waiting
    simp only [Bool.not_false, Bool.not_true, Bool.false_and, Bool.toNat_true, Bool.toNat_false]
      at counted waiting
    omega
  · rw [waits, runs] at waiting
    have bound := Bool.toNat_le (!new.isEnded)
    simp only [Bool.not_false, Bool.not_true, Bool.and_false, Bool.and_self, Bool.toNat_true,
      Bool.toNat_false] at counted waiting
    omega

/-- Every event lowers the number of those that can still happen. -/
theorem Move.left_lt {event : Event} (m : Move results s event s') : s'.left < s.left := by
  cases m with
  | start gathering waits room => exact State.left_set_lt waits rfl (.inr ⟨rfl, rfl⟩)
  | succeed runs result => exact State.left_set_lt runs rfl (.inl rfl)
  | fail runs result => exact State.left_set_lt runs rfl (.inl rfl)
  | withdraw unwinding waits => exact State.left_set_lt waits rfl (.inl rfl)
  | interrupt unwinding runs => exact State.left_set_lt runs rfl (.inl rfl)
  | notice gathering failure => simp [State.left, Caller.left, gathering]
  | deliver gathering failure ended => simp [State.left, Caller.left, gathering]
  | raise unwinding ended => simp [State.left, Caller.left, unwinding]

theorem length_add_left_le (h : run results s events = some s') :
    events.length + s'.left ≤ s.left := by
  induction events generalizing s with
  | nil =>
    cases h
    simp
  | cons event events ih =>
    obtain ⟨next, hstep, hrun⟩ := run_cons_eq_some h
    have rest := ih hrun
    have lower := (move_of_step hstep).left_lt
    rw [List.length_cons]
    omega

/-- No schedule goes on forever: a job has two events, and the caller two turns. -/
theorem length_le_of_run {width : ℕ}
    (h : run results (.initial width results.length) events = some s) :
    events.length ≤ 2 * results.length + 2 := by
  have bound := length_add_left_le h
  have full : (State.initial width results.length : State ε α).left = 2 * results.length + 2 := by
    simp [State.left, State.initial, Caller.left, List.countP_replicate, Job.isEnded,
      Job.isRunning]
    omega
  omega

/-- A job that is under way can end. -/
theorem Consistent.exists_finish {width : ℕ} (h : Consistent width results past s) {i : ℕ}
    (runs : s.jobs[i]? = some .running) : ∃ next, step results s (.finish i) = some next := by
  obtain ⟨inside, -⟩ := List.getElem?_eq_some_iff.1 runs
  have bound : i < results.length := h.length ▸ inside
  cases result : results[i] with
  | ok a => exact ⟨_, (Move.succeed runs (by rw [List.getElem?_eq_getElem bound, result])).step_eq⟩
  | error e => exact ⟨_, (Move.fail runs (by rw [List.getElem?_eq_getElem bound, result])).step_eq⟩

/-- Without a job under way, a waiting one finds room. -/
theorem Consistent.exists_start {width : ℕ} (h : Consistent width results past s) (room : 0 < width)
    (gathering : s.caller = .gathering) (idle : s.running = 0) {i : ℕ}
    (waits : s.jobs[i]? = some .waiting) : ∃ next, step results s (.start i) = some next := by
  have free := h.permits
  obtain ⟨permits, hpermits⟩ : ∃ permits, s.permits = permits + 1 := ⟨s.permits - 1, by omega⟩
  exact ⟨_, (Move.start gathering waits hpermits).step_eq⟩

theorem State.exists_unended (h : ¬s.allEnded = true) :
    ∃ (i : ℕ) (job : Job ε α), s.jobs[i]? = some job ∧ job.isEnded = false := by
  obtain ⟨job, hjob, unended⟩ : ∃ job ∈ s.jobs, job.isEnded = false := by
    simpa [State.allEnded] using h
  obtain ⟨i, found⟩ := List.getElem?_of_mem hjob
  exact ⟨i, job, found, unended⟩

/-- **As long as there is no outcome, something can happen.** Either a job is under way and can end,
or one waits and finds room, or it is the turn of the caller. -/
theorem Consistent.exists_step {width : ℕ} (h : Consistent width results past s) (room : 0 < width)
    (unsettled : s.outcome? = none) : ∃ event next, step results s event = some next := by
  cases hcaller : s.caller with
  | gathering =>
    cases hfailure : s.failure with
    | some e => exact ⟨_, _, (Move.notice hcaller hfailure).step_eq⟩
    | none =>
      by_cases ended : s.allEnded = true
      · exact ⟨_, _, (Move.deliver hcaller hfailure ended).step_eq⟩
      · obtain ⟨i, job, found, unended⟩ := State.exists_unended ended
        -- A job that is under way can end; if there is none, the waiting one has room.
        by_cases idle : s.running = 0
        · have still : ¬job.isRunning = true :=
            List.countP_eq_zero.1 idle job (List.mem_of_getElem? found)
          cases job with
          | waiting => exact ⟨_, h.exists_start room hcaller idle found⟩
          | running => exact absurd rfl still
          | _ => cases unended
        · obtain ⟨job, hjob, runs⟩ := List.countP_pos_iff.1 (Nat.pos_of_ne_zero idle)
          obtain ⟨i, found⟩ := List.getElem?_of_mem hjob
          cases job with
          | running => exact ⟨_, h.exists_finish found⟩
          | _ => cases runs
  | unwinding e =>
    by_cases ended : s.allEnded = true
    · exact ⟨_, _, (Move.raise hcaller ended).step_eq⟩
    · obtain ⟨i, job, found, unended⟩ := State.exists_unended ended
      cases job with
      | waiting => exact ⟨_, _, (Move.withdraw hcaller found).step_eq⟩
      | running => exact ⟨_, _, (Move.interrupt hcaller found).step_eq⟩
      | _ => cases unended
  | returned values => simp [State.outcome?, hcaller] at unsettled
  | raised e => simp [State.outcome?, hcaller] at unsettled

/-- **An outcome is in reach from every consistent state**, if there is room for a job at all. There
is always an event that can happen, and each one brings the end nearer. -/
theorem Consistent.exists_outcome {width : ℕ} (h : Consistent width results past s)
    (room : 0 < width) : ∃ events last, FanOut.run results s events = some last ∧
      last.outcome?.isSome := by
  -- Every event leaves fewer of them, so it is enough that some event can happen.
  induction hleft : s.left using Nat.strongRecOn generalizing s past with
  | ind left ih =>
    cases unsettled : s.outcome? with
    | some outcome => exact ⟨[], s, rfl, by rw [unsettled]; rfl⟩
    | none =>
      obtain ⟨event, next, hstep⟩ := h.exists_step room unsettled
      have m := move_of_step hstep
      obtain ⟨events, last, hrun, settled⟩ := ih next.left (hleft ▸ m.left_lt) (h.move m) rfl
      exact ⟨event :: events, last, by rw [FanOut.run, hstep, Option.bind_some, hrun], settled⟩

/-! ### What the outcome is

The caller returns the results of all jobs if none has failed, and otherwise raises the failure that
came first, after all other jobs have ended or have been cancelled. -/

/-- Once there is an outcome, all jobs have ended. -/
theorem Consistent.allEnded {width : ℕ} (h : Consistent width results past s)
    (settled : s.outcome?.isSome) : s.allEnded := by
  cases hcaller : s.caller with
  | returned values => exact (h.returned values hcaller).1
  | raised e => exact (h.raised e hcaller).1
  | _ => simp [State.outcome?, hcaller] at settled

/-- Once all jobs have ended, none is under way. -/
theorem State.running_of_allEnded (ended : s.allEnded) : s.running = 0 := by
  refine List.countP_eq_zero.2 fun job hjob runs => ?_
  have ended : job.isEnded = true := List.all_eq_true.1 ended job hjob
  cases job <;> simp_all [Job.isEnded, Job.isRunning]

/-- **The outcome is the failure that came first, or else the results of all jobs in their
order.** -/
theorem Consistent.outcome_eq {width : ℕ} (h : Consistent width results past s)
    {outcome : Except ε (List α)} (settled : s.outcome? = some outcome) :
    (∃ e, firstFailure results past = some e ∧ outcome = .error e) ∨
      firstFailure results past = none ∧
        ∃ values, results = values.map .ok ∧ outcome = .ok values := by
  cases hcaller : s.caller with
  | returned values =>
    obtain ⟨-, unfailed, hresults⟩ := h.returned values hcaller
    rw [State.outcome?, hcaller] at settled
    cases settled
    exact .inr ⟨h.failure.symm.trans unfailed, values, hresults, rfl⟩
  | raised e =>
    obtain ⟨-, failed⟩ := h.raised e hcaller
    rw [State.outcome?, hcaller] at settled
    cases settled
    exact .inl ⟨e, h.failure.symm.trans failed, rfl⟩
  | _ => simp [State.outcome?, hcaller] at settled

theorem outcome?_eq {width : ℕ} {outcome : Except ε (List α)}
    (h : outcome? width results events = some outcome) :
    (∃ e, firstFailure results events = some e ∧ outcome = .error e) ∨
      firstFailure results events = none ∧
        ∃ values, results = values.map .ok ∧ outcome = .ok values := by
  obtain ⟨s, hrun, settled⟩ := Option.bind_eq_some_iff.1 h
  exact (consistent_of_run hrun).outcome_eq settled

/-! ### One job after the other

The plain loop over the jobs, which stops at the first failure, is one of the schedules. So whatever
holds under every schedule holds of the loop. -/

/-- The state in which the first jobs are done and the others wait. -/
def State.upTo (width : ℕ) (values : List α) (waiting : ℕ) : State ε α :=
  ⟨values.map .done ++ List.replicate waiting .waiting, width, none, .gathering⟩

/-- The first job that waits can start. -/
theorem exists_start_upTo (results : List (Except ε α)) {width : ℕ} (room : 0 < width)
    (values : List α) (waiting : ℕ) :
    ∃ permits, permits + 1 = width ∧
      step results (.upTo width values (waiting + 1)) (.start values.length) =
        some ⟨values.map .done ++ .running :: List.replicate waiting .waiting, permits, none,
          .gathering⟩ := by
  obtain ⟨permits, rfl⟩ : ∃ permits, width = permits + 1 := ⟨width - 1, by omega⟩
  have waits : (State.upTo (permits + 1) values (waiting + 1) : State ε α).jobs[values.length]? =
      some .waiting := by
    simp [State.upTo]
  refine ⟨permits, rfl, (Move.start rfl waits rfl).step_eq.trans ?_⟩
  simp [State.upTo, List.replicate_succ]

/-- Jobs that succeed, tried one after the other. -/
theorem exists_run_upTo {width : ℕ} (room : 0 < width) (values : List α)
    (rest : List (Except ε α)) :
    ∃ events, run (values.map Except.ok ++ rest) (.initial width (values.length + rest.length))
      events = some (.upTo width values rest.length) := by
  induction values using List.reverseRecOn generalizing rest with
  | nil => exact ⟨[], by simp [run, State.initial, State.upTo]⟩
  | append_singleton values a ih =>
    obtain ⟨events, before⟩ := ih (.ok a :: rest)
    obtain ⟨permits, hpermits, start⟩ := exists_start_upTo
      (values.map Except.ok ++ .ok a :: rest) room values rest.length
    have finish : step (values.map Except.ok ++ .ok a :: rest)
        ⟨values.map .done ++ .running :: List.replicate rest.length .waiting, permits, none,
          .gathering⟩ (.finish values.length) =
        some (.upTo width (values ++ [a]) rest.length) := by
      refine (Move.succeed (a := a) (by simp) (by simp)).step_eq.trans ?_
      simp [State.upTo, hpermits]
    have same : (values ++ [a]).map Except.ok ++ rest = values.map Except.ok ++ .ok a :: rest := by
      simp
    have length : (values ++ [a]).length + rest.length =
        values.length + (Except.ok a :: rest).length := by
      simp only [List.length_append, List.length_cons, List.length_nil]
      omega
    refine ⟨events ++ [.start values.length, .finish values.length], ?_⟩
    rw [same, length, run_append, before, Option.bind_some, run, List.length_cons, start,
      Option.bind_some, run, finish]
    rfl

/-- Jobs that all succeed, tried one after the other. -/
theorem mapM_id_map_ok (values : List α) :
    (values.map Except.ok : List (Except ε α)).mapM id = .ok values := by
  rw [List.mapM_map, Outcome.mapM_eq_ok_map (f := id ∘ .ok) (g := id) fun _ _ => rfl, List.map_id]

/-- Jobs succeed up to the first that fails, if any does. -/
theorem exists_eq_map_ok_append (results : List (Except ε α)) : ∃ (values : List α) (rest : _),
    results = values.map .ok ++ rest ∧ (rest = [] ∨ ∃ e tail, rest = .error e :: tail) := by
  induction results with
  | nil => exact ⟨[], [], rfl, .inl rfl⟩
  | cons result results ih =>
    cases result with
    | error e => exact ⟨[], _, rfl, .inr ⟨e, results, rfl⟩⟩
    | ok a =>
      obtain ⟨values, rest, rfl, hrest⟩ := ih
      exact ⟨a :: values, rest, rfl, hrest⟩

/-- **Trying one job after the other, up to the first that fails, is a schedule.** Its outcome is
that of the loop: all results, or the first failure. -/
theorem exists_events {width : ℕ} (room : 0 < width) (results : List (Except ε α)) :
    ∃ events, outcome? width results events = some (results.mapM id) := by
  obtain ⟨values, rest, rfl, hrest⟩ := exists_eq_map_ok_append results
  obtain ⟨events, before⟩ := exists_run_upTo room values rest
  have length : (values.map Except.ok ++ rest).length = values.length + rest.length := by simp
  obtain rfl | ⟨e, tail, rfl⟩ := hrest
  · -- All jobs are done, and the caller goes on.
    have ended : (State.upTo width values 0 : State ε α).allEnded = true := by
      simp [State.upTo, State.allEnded, Job.isEnded]
    have deliver : Move (values.map Except.ok ++ []) (.upTo width values 0) .resume _ :=
      .deliver rfl rfl ended
    refine ⟨events ++ [.resume], ?_⟩
    have results : (State.upTo width values 0 : State ε α).jobs.filterMap Job.result? = values := by
      rw [State.upTo, List.replicate_zero, List.append_nil, List.filterMap_map]
      exact List.filterMap_some
    rw [outcome?, length, run_append, before, Option.bind_some, run, List.length_nil,
      deliver.step_eq, results, List.append_nil, mapM_id_map_ok]
    rfl
  · -- The next job fails; whatever happens then, this was the first failure.
    obtain ⟨permits, -, start⟩ := exists_start_upTo
      (values.map Except.ok ++ .error e :: tail) room values tail.length
    have fail : Move (values.map Except.ok ++ .error e :: tail)
        ⟨values.map .done ++ .running :: List.replicate tail.length .waiting, permits, none,
          .gathering⟩ (.finish values.length) _ :=
      .fail (e := e) (by simp) (by simp)
    have failed : ∃ s : State ε α, run (values.map Except.ok ++ Except.error e :: tail)
        (.initial width (values.map Except.ok ++ Except.error e :: tail).length)
        (events ++ [.start values.length, .finish values.length]) = some s ∧
        s.failure = some e := by
      rw [length, run_append, before, Option.bind_some, run, List.length_cons, start,
        Option.bind_some, run, fail.step_eq]
      exact ⟨_, rfl, rfl⟩
    obtain ⟨s, hrun, hfailure⟩ := failed
    have consistent := consistent_of_run hrun
    obtain ⟨more, last, hmore, settled⟩ := consistent.exists_outcome room
    obtain ⟨outcome, houtcome⟩ := Option.isSome_iff_exists.1 settled
    refine ⟨(events ++ [.start values.length, .finish values.length]) ++ more, ?_⟩
    have first : firstFailure (values.map Except.ok ++ Except.error e :: tail)
        ((events ++ [.start values.length, .finish values.length]) ++ more) = some e := by
      rw [firstFailure_append, ← consistent.failure, hfailure, Option.some_or]
    have houtcome : last.outcome? = some (.error e) := by
      obtain ⟨e', first', rfl⟩ | ⟨unfailed, -⟩ := (consistent.run hmore).outcome_eq houtcome
      · rw [houtcome, ← Option.some.inj (first.symm.trans first')]
      · cases first.symm.trans unfailed
    rw [outcome?, run_append, hrun, Option.bind_some, hmore, Option.bind_some, houtcome,
      List.mapM_append, mapM_id_map_ok]
    rfl

end PropertyMarket.FanOut
