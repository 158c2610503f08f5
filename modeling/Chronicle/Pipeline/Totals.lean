import Chronicle.Credit.Decisions
import Chronicle.Pipeline.Descent

/-!
# Published totals

What the consumers of the final tables count: the days with usage, the attributed minutes, the
review sessions and top apps, and the rows of the aggregates. Each consumer filters the rows by
itself.
-/

namespace Chronicle.Pipeline

open Chronicle.Library Chronicle.Library.StableSort Chronicle.Library.Stages

/-! ## Day coverage -/

/-- The row makes its day one with usage. -/
def marksUsage (row : Row) : Bool :=
  row.interactionType = appUsage && row.minimumDurationAggregateEligible &&
    row.durationMinutes.any Binary64.isPositive

/-- The usage days of each participant, as pairs. -/
def usageDates (rows : List Row) : List ParticipantDay :=
  (rows.filter marksUsage).map fun row => (row.participantId, row.date)

/-- `index_raw_dates`, as pairs: a blank participant is indexed as "unknown". -/
def indexRawDates (rows : List Row) : List ParticipantDay :=
  rows.map fun row => (Credit.witnessKey row.participantId, row.date)

/-- The dates of one participant in ascending order. -/
def datesOf (days : List ParticipantDay) (participantId : String) : List String :=
  sortByKey id ((days.filter fun day => day.1 = participantId).map Prod.snd).dedup

/-- `inclusive_dates` -/
def inclusiveDates (calendar : Calendar) (first last : String) : Except String (List String) :=
  match calendar.parseDate first, calendar.parseDate last with
  | none, _ => .error "invalid coverage start date"
  | _, none => .error "invalid coverage end date"
  | some first, some last =>
      if first ≤ last ∧ maxDay ≤ last then .error "coverage date range overflow"
      else .ok ((List.range (last + 1 - first).toNat).map fun i : Nat => dateString (first + i))

/-- `window_for` -/
def windowFor (participantId : String) (windows : List StudyWindow) : Option StudyWindow :=
  (windows.find? fun window => window.participantId = participantId).or do
    let id ← numericalId participantId
    windows.find? fun window => numericalId window.participantId = some id

/-- `CoverageDayCheckpoint` -/
structure CoverageDay where
  participantId : String
  date : String
  status : String
deriving DecidableEq, Repr

/-- The day spine of one participant: the window without its exclusions, or else the days from the
first to the last one with data. -/
def daySpine (calendar : Calendar) (window : Option StudyWindow) (allDates : List String) :
    Except String (List String) :=
  match window with
  | some window =>
      (inclusiveDates calendar window.startDate window.endDate).map
        (List.filter fun date => !window.excludesDate date)
  | none =>
      match allDates.head?, allDates.getLast? with
      | some first, some last => inclusiveDates calendar first last
      | _, _ => .ok []

/-- The status of one day. -/
def dayStatus (used raw : List String) (date : String) : String :=
  if date ∈ used then "usage" else if date ∈ raw then "no_activity" else "no_data"

/-- The coverage of one participant. -/
def participantCoverage (calendar : Calendar) (used raw : List ParticipantDay)
    (windows : List StudyWindow) (participantId : String) : Except String (List CoverageDay) := do
  let rawDates := datesOf raw participantId
  let usedDates := datesOf used participantId
  let allDates := sortByKey id (rawDates ++ usedDates).dedup
  let window := windowFor participantId windows
  let spine ← daySpine calendar window allDates
  let uncovered := allDates.find? fun date =>
    window.all (fun window => window.keepsDate date) && date ∉ spine
  match uncovered with
  | some date => .error ("Day coverage: " ++ participantId ++ " has data on " ++ date ++
      " but the day spine does not cover it.")
  | none => pure (spine.map fun date => ⟨participantId, date, dayStatus usedDates rawDates date⟩)

/-- `build_coverage`, without the text of its CSV. -/
def buildCoverage (calendar : Calendar) (usageRows : List Row) (rawDates : List ParticipantDay)
    (windows : List StudyWindow) : Except String (List CoverageDay) :=
  let used := usageDates usageRows
  let participants := sortByKey id ((rawDates ++ used).map Prod.fst).dedup
  (participants.mapM (participantCoverage calendar used rawDates windows)).map List.flatten

/-! ## Attributed minutes -/

end Chronicle.Pipeline
