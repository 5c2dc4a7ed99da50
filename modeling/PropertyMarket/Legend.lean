import PropertyMarket.FanOut
import PropertyMarket.Legend.Label

/-!
# Legends

The legend of a metric divides its values into buckets of about the same size: the breaks between
the buckets are quantiles of the values, and each bucket is counted for itself.

## Main definitions

* `Legend` — the statistics, the breaks and the counted buckets of a field
* `Legend.Provider` — where statistics and counts come from
* `Legend.compute` — the legend of a provider
* `Legend.Run`, `Legend.observe` — a legend together with how its buckets were counted

## Implementation notes

The counts of the buckets do not depend on each other. `Legend.computeUnder` leaves open in which
order they come about; `Legend.compute` takes them in the order of the buckets.
-/

namespace PropertyMarket

/-! ### What a legend holds

A legend is generic in the kind of its bounds and in the kind of its counts, because rows at hand
give numbers and a store gives values. The records that come of it have the same fields in both
cases. -/

/-- The statistics of measured values. The bounds are missing where nothing is measured; the count
never is. -/
structure Legend.Stats (β γ : Type) where
  least : Option β
  greatest : Option β
  median : Option β
  count : γ
  deriving DecidableEq, Repr

/-- A counted bucket: its bounds, the label made of them, and how many values it holds. -/
structure Legend.Bucket (β γ : Type) where
  least : Option β
  greatest : Option β
  label : String
  count : γ
  deriving DecidableEq, Repr

/-- The legend of a field: the statistics of all its values, the breaks, and the buckets between
them. -/
structure Legend (β γ : Type) where
  field : Value
  stats : Legend.Stats β γ
  /-- The breaks between the buckets; a missing one does not bound its buckets. -/
  breaks : List (Option β)
  buckets : List (Legend.Bucket β γ)
  deriving Repr

namespace Legend

variable {β γ : Type}

/-- A bound as a value; a missing one is null. -/
def boundValue (bound : β → Value) (x : Option β) : Value := (x.map bound).getD .null

/-- The statistics as a record. -/
def Stats.toRecord (bound : β → Value) (count : γ → Value) (s : Stats β γ) : Record :=
  [("min", boundValue bound s.least), ("max", boundValue bound s.greatest),
    ("median", boundValue bound s.median), ("count", count s.count)]

/-- A bucket as a record. -/
def Bucket.toRecord (bound : β → Value) (count : γ → Value) (b : Bucket β γ) : Record :=
  [("min", boundValue bound b.least), ("max", boundValue bound b.greatest),
    ("label", .text b.label), ("count", count b.count)]

/-- A legend as a record. There is one method of making breaks, which is named in it all the
same. -/
def toRecord (bound : β → Value) (count : γ → Value) (l : Legend β γ) : Record :=
  [("field", l.field), ("method", .text "quantile"),
    ("buckets", .ofRecords (l.buckets.map (Bucket.toRecord bound count))),
    ("breaks", .list (l.breaks.map (boundValue bound))),
    ("stats", .record (l.stats.toRecord bound count))]

/-! ### How many buckets

The number of buckets is checked before anything is asked of a source, so a number out of range
costs nothing. -/

/-- The fewest buckets of a legend. -/
def fewestBuckets : Nat := 2

/-- The most buckets of a legend. -/
def mostBuckets : Nat := 50

/-- The buckets of a legend if nothing else is asked for. -/
def usualBuckets : Nat := 10

/-- How many buckets a value asks for: the usual number for null, an integer within the bounds as it
is, and anything else is refused. -/
def bucketCount (value : Value) : Except Fault Nat :=
  let refused : Except Fault Nat :=
    .error (.query (.bucketsOutOfRange fewestBuckets mostBuckets value))
  match value with
  | .null => .ok usualBuckets
  | .int n => if fewestBuckets ≤ n ∧ n ≤ mostBuckets then .ok n.toNat else refused
  | _ => refused

/-! ### Sources

A source gives a draft, that is the statistics and the breaks, and counts the buckets of a draft. It
is a parameter, so what is proved of a legend with a source in general holds of rows at hand and of
a store alike. -/

/-- What is known of a legend before its buckets are counted: what the first of the questions to a
source answers. -/
structure Draft (β γ : Type) where
  stats : Stats β γ
  breaks : List (Option β)
  deriving Repr

/-- The buckets: from the least value over the breaks to the greatest value. There is always one
more than there are breaks. -/
def Draft.ranges (d : Draft β γ) : List (Range β) :=
  Range.ofBoundaries (d.stats.least :: d.breaks ++ [d.stats.greatest])

/-- The legend of counted buckets. Only the labels can fail here, where a bound cannot be
written. -/
def Draft.finish (text : β → Except Fault String) (field : Value) (d : Draft β γ)
    (counts : List γ) : Except Fault (Legend β γ) := do
  let buckets ← (d.ranges.zip counts).mapM fun (range, count) => do
    return { least := range.lower, greatest := range.upper, label := ← range.label text, count }
  return ⟨field, d.stats, d.breaks, buckets⟩

/-- Where statistics and counts come from. A count may depend on the position of its bucket, since
the replies of a store come one for each. -/
structure Provider (β γ : Type) where
  /-- The statistics, and the breaks at some cuts. -/
  draft : List Cut → Except Fault (Draft β γ)
  /-- The number of values in the bucket at a position. -/
  count : Nat → Range β → Except Fault γ

/-- The number of values in each bucket, in the order of the buckets, or why it cannot be
counted. -/
def Provider.counts (provider : Provider β γ) (d : Draft β γ) : List (Except Fault γ) :=
  d.ranges.mapIdx provider.count

/-! ### Computing a legend

First the draft is made, then the buckets are counted, and then the legend is put together. The
counts are jobs of `FanOut`: how many run at a time is checked after the draft is there, and the
outcome does not depend on their order unless several of them fail. -/

/-- The draft of a legend, and how many buckets are counted at a time. The checks come in this
order: the number of buckets, the source, the width. -/
def Provider.prepare (provider : Provider β γ) (parts concurrency : Value) :
    Except Fault (Draft β γ × Nat) := do
  let n ← bucketCount parts
  let draft ← provider.draft (Cut.between n)
  return (draft, ← FanOut.width concurrency draft.ranges.length)

/-- The legend of a provider: the first bucket that cannot be counted is reported. The width is
checked and has no other influence. -/
def compute (provider : Provider β γ) (text : β → Except Fault String)
    (field parts concurrency : Value) : Except Fault (Legend β γ) := do
  let (draft, _) ← provider.prepare parts concurrency
  draft.finish text field (← (provider.counts draft).mapM id)

/-- The legend of a provider under a schedule, which gives the order of events for a number of
counts at a time and the number of buckets; nothing if the schedule cannot happen or stops before
the outcome. It goes on with what the schedule leads to, which may be a later bucket's failure. -/
def computeUnder (schedule : Nat → Nat → List FanOut.Event) (provider : Provider β γ)
    (text : β → Except Fault String) (field parts concurrency : Value) :
    Option (Except Fault (Legend β γ)) :=
  match provider.prepare parts concurrency with
  | .error fault => some (.error fault)
  | .ok (draft, width) =>
    let counts := provider.counts draft
    (FanOut.outcome? width counts (schedule width counts.length)).map fun outcome =>
      outcome.bind (draft.finish text field)

/-- A legend together with how its buckets were counted: in which order the counts started, and how
many of them were under way at a time at most. -/
structure Run (β γ : Type) where
  legend : Legend β γ
  /-- The cuts at which breaks were asked for. -/
  cuts : List Cut
  /-- The buckets in the order in which their counts started. -/
  calls : List (Range β)
  /-- The greatest number of counts under way at a time. -/
  peak : Nat

/-- The legend of a provider whose counts take turns, and how they did. The legend is that of
`compute`. -/
def observe (provider : Provider β γ) (text : β → Except Fault String)
    (field parts concurrency : Value) : Except Fault (Run β γ) := do
  let legend ← compute provider text field parts concurrency
  let cuts := Cut.between (← bucketCount parts)
  let (draft, width) ← provider.prepare parts concurrency
  let counts := provider.counts draft
  let events := FanOut.inTurn width counts.length
  return {
    legend, cuts
    calls := (FanOut.starts events).filterMap fun i => draft.ranges[i]?
    peak := FanOut.peak counts (FanOut.State.initial width counts.length) events }

end Legend

end PropertyMarket
