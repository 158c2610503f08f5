import Chronicle.Pipeline.Reconstruction
import Chronicle.Source.DuplicateTimestamps
import Chronicle.Source.ExactDuplicates
import Chronicle.Source.Timezones

/-!
# The source stages

From the decoded records to the rows whose duplicates are coalesced and moved apart. The parser of
timestamps is a parameter, and so is the time-zone database.
-/

namespace Chronicle.Source

open Chronicle.Library.StableSort Chronicle.Pipeline

/-- `remove_missing_timestamps` -/
def removeMissingTimestamps (rawRows : List RawRow) : List RawRow :=
  rawRows.filter fun raw => raw.eventTimestamp ≠ ""

/-- What the source stages take from the calendar library. -/
structure Clock extends Calendar where
  parseTimestamp : String → Option Int

/-- The row of a record before its time columns are filled in. -/
def bareRow (interactionRemap : List (String × String)) (index : Nat) (raw : RawRow)
    (eventTimestampNs : Int) : Row :=
  { sourceDataRows := [⟨raw.sourceDataRow, raw.sourceDataRow⟩]
    studyId := raw.studyId
    participantId := raw.participantId
    username := raw.username.replace "Target child" "Target Child"
    applicationLabel := raw.applicationLabel
    interactionType := (interactionRemap.lookup raw.interactionType).getD
      (Eyes.normalizeInteractionType raw.interactionType)
    appPackageName := raw.appPackageName
    eventTimestampNs := eventTimestampNs
    timezone := if raw.timezone = "" ∨ raw.timezone = "None" then "UTC" else raw.timezone
    anyAppUsageFlags := "[]"
    index := index }

/-- One record in `canonicalize_source_rows`. -/
def canonicalizeSourceRow (clock : Clock) (fallback : Zone)
    (interactionRemap : List (String × String)) (index : Nat) (raw : RawRow) : Except String Row :=
  match clock.parseTimestamp raw.eventTimestamp with
  | none => .error ("Invalid event_timestamp at data row " ++ toString raw.sourceDataRow)
  | some eventTimestampNs =>
      let row := bareRow interactionRemap index raw eventTimestampNs
      .ok (populateTimeColumns row ((clock.zone row.timezone).getD fallback))

/-- `canonicalize_source_rows`; the text of the zone parser's error is left out. -/
def canonicalizeSourceRows (clock : Clock) (rawRows : List RawRow) (fallbackTimezone : String)
    (interactionRemap : List (String × String)) : Except String (List Row) :=
  match clock.zone fallbackTimezone with
  | none => .error ("tz " ++ fallbackTimezone ++ ": ")
  | some fallback => rawRows.zipIdx.mapM fun entry =>
      canonicalizeSourceRow clock fallback interactionRemap entry.2 entry.1

/-- `handover_rank` -/
def handoverRank (row : Row) : Nat :=
  if row.interactionType = activityResumed then 0
  else if row.interactionType = activityPaused then 1
  else 2

/-- `order_source_records` -/
def orderSourceRecords (rows : List Row) : List Row :=
  sortByKey (fun row => toLex (row.eventTimestampNs, toLex (handoverRank row, row.index))) rows

/-- The loop of `order_source_records_with_policy`: the rows that no earlier row of their
participant is ahead of. -/
def inSourceOrder (latestByParticipant : String → Option Int) : List Row → List Row
  | [] => []
  | row :: rows =>
      if (latestByParticipant row.participantId).any (row.eventTimestampNs < ·) then
        inSourceOrder latestByParticipant rows
      else
        row :: inSourceOrder
          (Function.update latestByParticipant row.participantId (some row.eventTimestampNs)) rows

/-- `order_source_records_with_policy` -/
def orderSourceRecordsWithPolicy (rows : List Row) (dropOutOfSourceOrderEvents : Bool) :
    List Row :=
  if dropOutOfSourceOrderEvents then orderSourceRecords (inSourceOrder (fun _ => none) rows)
  else orderSourceRecords rows

/-- `disambiguate_duplicate_timestamps` -/
def disambiguateDuplicateTimestamps (rows : List Row) (enabled : Bool)
    (sameAppStopTypes otherStopTypes : List String) : Except String (List Row) :=
  if enabled then unalignDuplicateTimestamps rows sameAppStopTypes otherStopTypes else .ok rows

/-- The options that the source stages read. -/
structure SourceSettings where
  timezone : String := "UTC"
  timezoneHandling : String := "primary-convert"
  interactionRemap : List (String × String) := []
  dropOutOfSourceOrderEvents : Bool := false
  deduplicateExactRows : Bool := false
  correctDuplicateEventTimestamps : Bool := false
  sameAppStopTypes : List String := []
  otherStopTypes : List String := []

/-- The source stages up to the coalescing of duplicates. -/
def coalescedRows (clock : Clock) (settings : SourceSettings) (rawRows : List RawRow) :
    Except String (List Row) := do
  let rows ← canonicalizeSourceRows clock (removeMissingTimestamps rawRows) settings.timezone
    settings.interactionRemap
  let rows := orderSourceRecordsWithPolicy rows settings.dropOutOfSourceOrderEvents
  let selection ← resolveTimezoneStrategy rows settings.timezone settings.timezoneHandling
    (estimateDominantTimezone rows)
  let rows ← standardizeEventClock clock.toCalendar selection.rows selection.targetTimezone
  pure (coalesceDuplicateEventKeys rows settings.deduplicateExactRows)

/-- The source stages. -/
def sourceRows (clock : Clock) (settings : SourceSettings) (rawRows : List RawRow) :
    Except String (List Row) := do
  let rows ← coalescedRows clock settings rawRows
  disambiguateDuplicateTimestamps rows settings.correctDuplicateEventTimestamps
    settings.sameAppStopTypes settings.otherStopTypes

end Chronicle.Source
