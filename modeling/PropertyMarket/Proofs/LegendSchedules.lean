import PropertyMarket.Legend
import PropertyMarket.Proofs.Schedules

/-!
# Legends under any schedule

The buckets of a legend are counted side by side, in whatever order the counts happen to start, end
and fail. The order has no say in the legend: bucket `i` has the count of range `i`, or there is no
legend at all, but the failure that came first, and nothing is being counted any more.

## Main definitions

* `Legend.Supervised` — what holds of the counts of a legend at any time
* `Legend.Draft.CountedBy` — the buckets of a legend have the counts of their ranges

## Main results

* `Legend.finish_eq_ok` — a finished draft has its counts in order
* `Legend.computeUnder_of_room` — a legend under any schedule

## Implementation notes

What holds of counts under a schedule is proved of any list of results in `Schedules`: how many run,
that something can happen as long as one waits, and which outcome is reached. This module only adds
what a legend makes of the results. Its counts are put back in the order of their ranges, whatever
order they came in, because each is known by its position.

A schedule is a function of the room and of the number of counts, as it has to be given before it is
known what is counted. Whether it is one that can happen is not assumed: if it is not, there is no
outcome, and nothing is claimed.
-/

namespace PropertyMarket.Legend

variable {β γ : Type}

/-- What holds of the counts of a legend at any time: there is never more than the given room,
nothing gets stuck, and once there is an outcome nothing is left behind. -/
structure Supervised (counts : List (Except Fault γ)) (width : ℕ) (s : FanOut.State Fault γ) :
    Prop where
  bounded : s.running ≤ width
  /-- As long as a count waits, something can happen. -/
  live : .waiting ∈ s.jobs → ∃ event next, FanOut.step counts s event = some next
  /-- An outcome is in reach. -/
  ends : ∃ events last, FanOut.run counts s events = some last ∧ last.outcome?.isSome
  /-- Once there is an outcome, be it a failure, nothing waits or is being counted. -/
  quiet : s.outcome?.isSome → s.running = 0 ∧ ∀ job ∈ s.jobs, job.isEnded

theorem supervised_of_run {counts : List (Except Fault γ)} {width : ℕ} (room : 0 < width)
    {events : List FanOut.Event} {s : FanOut.State Fault γ}
    (hrun : FanOut.run counts (.initial width counts.length) events = some s) :
    Supervised counts width s := by
  have consistent := FanOut.consistent_of_run hrun
  have quiet (settled : s.outcome?.isSome) : s.running = 0 ∧ ∀ job ∈ s.jobs, job.isEnded := by
    have ended := consistent.allEnded settled
    exact ⟨FanOut.State.running_of_allEnded ended, List.all_eq_true.1 ended⟩
  have live (waits : .waiting ∈ s.jobs) :
      ∃ event next, FanOut.step counts s event = some next := by
    refine consistent.exists_step room (Option.not_isSome_iff_eq_none.1 fun settled => ?_)
    cases (quiet settled).2 _ waits
  exact {
    bounded := consistent.permits ▸ Nat.le_add_right _ _
    live
    ends := consistent.exists_outcome room
    quiet }

/-- The buckets of a legend have the bounds, labels and counts of the ranges of a draft, in their
order. -/
def Draft.CountedBy (d : Draft β γ) (p : Provider β γ) (text : β → Except Fault String)
    (l : Legend β γ) : Prop :=
  l.buckets.length = d.ranges.length ∧
    ∀ i r, d.ranges[i]? = some r → ∃ count label, p.count i r = .ok count ∧
      r.label text = .ok label ∧ l.buckets[i]? = some ⟨r.lower, r.upper, label, count⟩

theorem Provider.getElem?_counts (p : Provider β γ) (d : Draft β γ) (i : ℕ) :
    (p.counts d)[i]? = d.ranges[i]?.map (p.count i) := by
  rw [Provider.counts, List.getElem?_mapIdx]

/-- A finished draft has its counts in order. There are as many buckets as ranges, and each has the
count at its own position. -/
theorem Draft.countedBy_of_finish {p : Provider β γ} {d : Draft β γ}
    {text : β → Except Fault String} {field : Value} {counts : List γ} {l : Legend β γ}
    (counted : p.counts d = counts.map .ok) (h : d.finish text field counts = .ok l) :
    d.CountedBy p text l := by
  have length : d.ranges.length = counts.length := by
    simpa [Provider.counts] using congrArg List.length counted
  obtain ⟨buckets, hbuckets, h⟩ := Outcome.bind_eq_ok_iff.1 h
  cases h
  obtain ⟨same, each⟩ := List.forall₂_iff_get.1 (Outcome.mapM_eq_ok_iff.1 hbuckets)
  have whole : (d.ranges.zip counts).length = d.ranges.length := by
    rw [List.length_zip, length, Nat.min_self]
  refine ⟨same.symm.trans whole, fun i r hr => ?_⟩
  obtain ⟨inside, rfl⟩ := List.getElem?_eq_some_iff.1 hr
  have within : i < counts.length := length ▸ inside
  have count : p.count i d.ranges[i] = .ok counts[i] := by
    have found := p.getElem?_counts d i
    rw [counted, hr, List.getElem?_map, List.getElem?_eq_getElem within] at found
    exact (Option.some.inj found).symm
  have place : i < buckets.length := same ▸ whole ▸ inside
  have bucket := each i (whole ▸ inside) place
  rw [List.get_eq_getElem, List.getElem_zip] at bucket
  obtain ⟨label, hlabel, bucket⟩ := Outcome.bind_eq_ok_iff.1 bucket
  refine ⟨_, label, count, hlabel, ?_⟩
  rw [List.getElem?_eq_getElem place]
  exact (congrArg some (Except.ok.inj bucket)).symm

/-- **A legend does not depend on how its counts are scheduled.** Whatever happens when, the counts
stay within their room and come to an outcome, which is the failure that came first, or else the
legend of the counts in their order. Counting one bucket after the other is a schedule, too. -/
theorem computeUnder_of_room {p : Provider β γ} {parts concurrency : Value} {d : Draft β γ}
    {width : ℕ} (prepared : p.prepare parts concurrency = .ok (d, width)) (room : 0 < width)
    (text : β → Except Fault String) (field : Value) :
    (∀ events s, FanOut.run (p.counts d) (.initial width (p.counts d).length) events = some s →
      Supervised (p.counts d) width s ∧ events.length ≤ 2 * d.ranges.length + 2) ∧
    (∀ schedule outcome, computeUnder schedule p text field parts concurrency = some outcome →
      (∀ fault, FanOut.firstFailure (p.counts d) (schedule width (p.counts d).length) = some fault →
        outcome = .error fault) ∧
      (FanOut.firstFailure (p.counts d) (schedule width (p.counts d).length) = none →
        outcome = compute p text field parts concurrency ∧
          ∀ i r, d.ranges[i]? = some r → ∃ count, p.count i r = .ok count) ∧
      ∀ l, outcome = .ok l → d.CountedBy p text l) ∧
    ∃ schedule, computeUnder schedule p text field parts concurrency =
      some (compute p text field parts concurrency) := by
  have under (schedule : ℕ → ℕ → List FanOut.Event) :
      computeUnder schedule p text field parts concurrency =
        (FanOut.outcome? width (p.counts d) (schedule width (p.counts d).length)).map
          (·.bind (d.finish text field)) := by
    rw [computeUnder, prepared]
  have inTurn : compute p text field parts concurrency =
      ((p.counts d).mapM id).bind (d.finish text field) := by
    rw [compute, prepared]
    rfl
  have length : (p.counts d).length = d.ranges.length := by simp [Provider.counts]
  refine ⟨fun events s hrun => ⟨supervised_of_run room hrun, ?_⟩,
    fun schedule outcome houtcome => ?_, ?_⟩
  · exact length ▸ FanOut.length_le_of_run hrun
  · rw [under] at houtcome
    obtain ⟨counted, hcounted, rfl⟩ := Option.map_eq_some_iff.1 houtcome
    obtain ⟨e, first, rfl⟩ | ⟨unfailed, counts, hcounts, rfl⟩ := FanOut.outcome?_eq hcounted
    · rw [first]
      exact ⟨fun fault h => congrArg _ (Option.some.inj h), nofun, fun l h => by cases h⟩
    · rw [unfailed]
      refine ⟨nofun, fun _ => ⟨?_, fun i r hr => ?_⟩, fun l h => d.countedBy_of_finish hcounts h⟩
      · rw [inTurn, hcounts, FanOut.mapM_id_map_ok]
      · have found := p.getElem?_counts d i
        rw [hcounts, hr, List.getElem?_map] at found
        obtain ⟨count, -, hcount⟩ := Option.map_eq_some_iff.1 found
        exact ⟨count, hcount.symm⟩
  · obtain ⟨events, hevents⟩ := FanOut.exists_events room (p.counts d)
    refine ⟨fun _ _ => events, ?_⟩
    rw [under, hevents, inTurn]
    rfl

/-- Four buckets, the second and the last of which cannot be counted. Which of the two failures is
reported depends on the schedule. -/
def failingTwice : Provider ℕ ℕ where
  draft _ := .ok ⟨⟨some 0, some 9, some 5, 10⟩, [some 3, some 5, some 7]⟩
  count
    | 1, _ => .error (.query (.storeFailed "second" []))
    | 3, _ => .error (.query (.storeFailed "fourth" []))
    | position, _ => .ok position

/-- Two counts at a time: the last bucket fails first, and the second one before the caller has its
turn. -/
def lastFailsFirst : List FanOut.Event :=
  [.start 0, .start 3, .finish 3, .start 1, .finish 1, .resume, .cancel 0, .cancel 2, .resume]

/-- It is not the second bucket, which comes first, but the last one, which failed first. -/
theorem computeUnder_lastFailsFirst :
    failingTwice.prepare (.int 4) (.int 2) =
        .ok (⟨⟨some 0, some 9, some 5, 10⟩, [some 3, some 5, some 7]⟩, 2) ∧ 0 < 2 ∧
      computeUnder (fun _ _ => lastFailsFirst) failingTwice (fun n => .ok (toString n))
          (.text "total_sales") (.int 4) (.int 2) =
        some (.error (.query (.storeFailed "fourth" []))) := by
  have prepared : failingTwice.prepare (.int 4) (.int 2) =
      .ok (⟨⟨some 0, some 9, some 5, 10⟩, [some 3, some 5, some 7]⟩, 2) := rfl
  obtain ⟨-, outcomes, -⟩ := computeUnder_of_room prepared (by decide)
    (fun n => .ok (toString n)) (.text "total_sales")
  have settled : (computeUnder (fun _ _ => lastFailsFirst) failingTwice
      (fun n => .ok (toString n)) (.text "total_sales") (.int 4) (.int 2)).isSome = true := rfl
  obtain ⟨outcome, happened⟩ := Option.isSome_iff_exists.1 settled
  have first : outcome = .error (.query (.storeFailed "fourth" [])) :=
    (outcomes _ outcome happened).1 _ rfl
  exact ⟨prepared, by decide, first ▸ happened⟩

end PropertyMarket.Legend
