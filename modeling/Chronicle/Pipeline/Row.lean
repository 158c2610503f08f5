import Chronicle.Library.Binary64

/-!
# The rows of the app pipeline

A row is one raw event or one reconstructed episode. An `i64` is the integer it stands for and an
`f64` a binary64 datum. The columns that only the screen output reads are left out.
-/

namespace Chronicle.Pipeline

open Chronicle.Library

/-- `ACTIVITY_RESUMED` -/
def activityResumed : String := "Activity Resumed"

/-- `APP_USAGE` -/
def appUsage : String := "App Usage"

/-- `FILTERED_APP_USAGE` -/
def filteredAppUsage : String := "Filtered App Usage"

/-- `FILTERED_APP_BACKGROUND_USAGE` -/
def filteredAppBackgroundUsage : String := "Filtered App Background Usage"

/-- `NON_TARGET_PARTICIPANT_APP_USAGE` -/
def nonTargetParticipantAppUsage : String := "Non-Target Participant App Usage"

/-- `END_OF_USAGE_MISSING` -/
def endOfUsageMissing : String := "End of Usage Missing"

/-- An inclusive range of one-based raw data-row numbers. -/
structure SourceDataRowRange where
  first : Nat
  last : Nat
deriving DecidableEq, Repr

/-- The raw data rows that may contribute to a row, as ascending ranges. -/
abbrev SourceDataRows := List SourceDataRowRange

/-- `SourceDataRows::iter` -/
def SourceDataRows.iter (rows : SourceDataRows) : List Nat :=
  rows.flatMap fun range => (List.range (range.last + 1 - range.first)).map (range.first + ·)

/-- The ranges in ascending order, joined where they meet or overlap; `current` is the range being
extended. -/
def joinRanges (current : SourceDataRowRange) : List SourceDataRowRange → SourceDataRows
  | [] => [current]
  | next :: rest =>
      if next.first ≤ min (current.last + 1) 4294967295 then
        joinRanges ⟨current.first, max current.last next.last⟩ rest
      else current :: joinRanges next rest

/-- `SourceDataRows::merge` -/
def SourceDataRows.merge (rows additional : SourceDataRows) : SourceDataRows :=
  if additional.isEmpty then rows
  else if rows.isEmpty then additional
  else
    match List.merge rows additional fun a b => a.first ≤ b.first with
    | [] => []
    | first :: rest => joinRanges first rest

/-- A searched region in which no matching event was found. -/
structure LineageSearchEvidence where
  protocolVersion : String
  reason : String
  indexSpace : String
  startParticipantId : String
  startEventIndex : Nat
  endEventIndexExclusive : Nat
  candidateEventCount : Nat
  candidateChainDigest : String
deriving DecidableEq, Repr

/-- The label of the micro-use classification. -/
inductive MicroUseClassification where
  | microUse
  | notMicroUse
  | notClassifiable
deriving DecidableEq, Repr

/-- Why a published stop endpoint was replaced. -/
inductive MaximumDurationEffectiveEndpointReason where
  | maximumDurationTruncationBoundary
deriving DecidableEq, Repr

/-- `RowEpisodeTiming`; the defaults are those of `RowEpisodeTiming::EMPTY`. -/
structure EpisodeTiming where
  startTimestampNs : Option Int := none
  stopTimestampNs : Option Int := none
  durationSeconds : Option Binary64 := none
  durationMinutes : Option Binary64 := none
  rawEpisodeStartTimestampNs : Option Int := none
  rawEpisodeStopTimestampNs : Option Int := none
  rawEpisodeDurationNs : Option Int := none
  minimumDurationQualified : Option Bool := none
  minimumDurationAggregateEligible : Bool := true
  minimumDurationBlankApplied : Bool := false
  concurrentSubintervalFloorBlankApplied : Bool := false
  minimumDurationDropPending : Bool := false
  maximumDurationQualified : Option Bool := none
  maximumDurationAggregateEligible : Bool := true
  maximumDurationDropPending : Bool := false
  maximumDurationTrimmedNs : Option Int := none
  effectiveEndpointReason : Option MaximumDurationEffectiveEndpointReason := none
deriving DecidableEq

/-- `RowData` -/
structure Row extends EpisodeTiming where
  sourceDataRows : SourceDataRows := []
  lineageSearches : List LineageSearchEvidence := []
  studyId : String := ""
  participantId : String := ""
  username : String := ""
  applicationLabel : String := ""
  interactionType : String := ""
  appPackageName : String := ""
  eventTimestampNs : Int := 0
  timezone : String := ""
  dataTimeGapHours : Binary64 := .finite 0
  date : String := ""
  day : Nat := 0
  weekdayMf : Nat := 0
  weekdayMth : Nat := 0
  weekdaySuTh : Nat := 0
  hour : Nat := 0
  quarter : Nat := 0
  microUseClassification : Option MicroUseClassification := none
  appUsageEndReason : Option String := none
  usageSessionId : Option Int := none
  anyAppUsageFlags : String := ""
  validAppNewEngage30s : Int := 0
  validAppNewEngageCustom : Int := 0
  validAppSwitchedApp : Int := 0
  validAppUsageTimeGapHours : Binary64 := .finite 0
  anyAppNewEngage30s : Int := 0
  anyAppNewEngageCustom : Int := 0
  anyAppSwitchedApp : Int := 0
  anyAppUsageTimeGapHours : Binary64 := .finite 0
  genreIdScraped : Option String := none
  broadAppCategory : Option String := none
  codebookFields : List (Option String) := []
  codebookGenreFieldsCleared : Option (List Nat) := none
  index : Nat := 0
  usageLayer : Option String := none

end Chronicle.Pipeline
