import Chronicle.Pipeline.Reconstruction

/-!
# Episodes bounded by the screen

With locked-screen time excluded, an app row is kept only if it starts within a screen interval of
its participant, and it ends no later than that interval.
-/

namespace Chronicle.Pipeline

open Chronicle.Library Chronicle.Library.Machine Chronicle.Library.StableSort

/-- A screen interval: its start, and its stop unless it is open. -/
abbrev ScreenInterval := Int × Option Int

/-- A sort of screen intervals by their starts that promises nothing of equal starts, as
`sort_unstable_by_key` does. -/
structure IntervalSort where
  sort : List ScreenInterval → List ScreenInterval
  perm : ∀ intervals, (sort intervals).Perm intervals
  sorted : ∀ intervals, (sort intervals).Pairwise fun a b => a.1 ≤ b.1

/-- The stable sort. -/
def IntervalSort.stable : IntervalSort :=
  ⟨sortByKey Prod.fst, perm_sortByKey Prod.fst, pairwise_sortByKey Prod.fst⟩

variable (order : IntervalSort)

/-- The screen intervals of one participant, by their starts. -/
def participantIntervals (screenRows : List Row) (participantId : String) : List ScreenInterval :=
  order.sort ((screenRows.filter fun screen => screen.participantId = participantId).filterMap
    fun screen => screen.startTimestampNs.map fun start => (start, screen.stopTimestampNs))

/-- The last of the sorted intervals that has begun by `start` and has not stopped by it. -/
def intervalAt (intervals : List ScreenInterval) (start : Int) : Option ScreenInterval :=
  (intervals.takeWhile fun interval => interval.1 ≤ start).reverse.find? fun interval =>
    interval.2.all fun stop => start < stop

/-- The screen stop that replaces the row's own stop, when the row ends after it or not at all. -/
def clippingStop (row : Row) (interval : ScreenInterval) : Option Int :=
  interval.2.filter fun screenStop => row.stopTimestampNs.all fun stop => screenStop < stop

/-- The row with its stop and its durations at the clipping stop. -/
def Row.clip (row : Row) (start screenStop : Int) : Row :=
  { row with stopTimestampNs := some screenStop }.publishDuration (saturate64 (screenStop - start))

/-- The row as one screen interval bounds it. -/
def boundBy (row : Row) (start : Int) (interval : ScreenInterval) : Row :=
  ((clippingStop row interval).map (row.clip start)).getD row

/-- The row as the participant's screen intervals bound it, or nothing if it goes. -/
def boundRow (screenRows : List Row) (row : Row) : Option Row := do
  let start ← row.startTimestampNs
  let interval ← intervalAt (participantIntervals order screenRows row.participantId) start
  let bounded := boundBy row start interval
  if bounded.stopTimestampNs.all fun stop => start < stop then some bounded else none

/-- `bound_app_rows_to_interactive_screen` -/
def boundAppRowsToInteractiveScreen (rows screenRows : List Row) : List Row :=
  rows.filterMap (boundRow order screenRows)

/-- `remove_participants` -/
def removeParticipants (rows : List Row) (excluded : List String) : List Row :=
  rows.filter fun row => row.participantId ∉ excluded

end Chronicle.Pipeline
