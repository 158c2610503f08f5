import Mathlib.Data.List.Infix
import Chronicle.Pipeline.Clock
import Chronicle.Pipeline.Reconstruction

/-!
# Observation windows, people and days

The stages after cleaning: rows outside a participant's study window go, rows of other people are
relabelled, sessions are divided at local midnight, and days without activity get a placeholder.
-/

namespace Chronicle.Pipeline

open Chronicle.Library Chronicle.Library.Machine

/-! ## Participant identifiers -/

/-- The first run of at least three digits, `run` being the digits read so far. -/
def digitRun (run : List Char) : List Char → Option (List Char)
  | [] => if 3 ≤ run.length then some run else none
  | c :: rest =>
      if c.isDigit then digitRun (run ++ [c]) rest
      else if 3 ≤ run.length then some run
      else digitRun [] rest

/-- `numerical_id` -/
def numericalId (value : String) : Option String := (digitRun [] value.toList).map String.ofList

/-- `matching_study_participant_id`: the identifier itself, else one with the same number. -/
def matchingStudyParticipantId (participantId : String) (candidateIds : List String) :
    Option String :=
  (candidateIds.find? fun candidate => candidate = participantId).or do
    let id ← numericalId participantId
    candidateIds.find? fun candidate => numericalId candidate = some id

/-- What follows the first `-D`. -/
def afterDeviceMark : List Char → Option (List Char)
  | '-' :: 'D' :: rest => some rest
  | _ :: rest => afterDeviceMark rest
  | [] => none

/-- `device_number`: a number that does not fit 32 bits counts as none. -/
def deviceNumber (participantId : String) : Nat :=
  let digits := ((afterDeviceMark participantId.toList).getD []).takeWhile Char.isDigit
  let number := digits.foldl (fun value c => value * 10 + (c.toNat - '0'.toNat)) 0
  if digits.isEmpty || 2 ^ 32 ≤ number then 1 else number

/-! ## Study windows -/

/-- `StudyWindowExclusion` -/
structure StudyWindowExclusion where
  startDate : String
  endDate : String
deriving DecidableEq, Repr

/-- `StudyWindow` -/
structure StudyWindow where
  participantId : String
  startDate : String
  endDate : String
  exclusions : List StudyWindowExclusion
deriving DecidableEq, Repr

/-- `ResolvedParticipantWindow` -/
structure ResolvedParticipantWindow where
  participantId : String
  window : Option StudyWindow
deriving DecidableEq, Repr

/-- `resolve_participant_windows`, in the order in which the participants are first seen. -/
def resolveParticipantWindows (rows : List Row) (windows : List StudyWindow) :
    List ResolvedParticipantWindow :=
  (rows.map Row.participantId).reverse.dedup.reverse.map fun participantId =>
    { participantId := participantId
      window := do
        let id ← matchingStudyParticipantId participantId (windows.map StudyWindow.participantId)
        windows.find? fun window => window.participantId = id }

/-- `study_window_excludes_date` -/
def StudyWindow.excludesDate (window : StudyWindow) (date : String) : Bool :=
  window.exclusions.any fun exclusion =>
    decide (exclusion.startDate ≤ date) && decide (date ≤ exclusion.endDate)

/-- The date lies in the window and in none of its exclusions. -/
def StudyWindow.keepsDate (window : StudyWindow) (date : String) : Bool :=
  decide (window.startDate ≤ date) && decide (date ≤ window.endDate) && !window.excludesDate date

/-- `window_keeps_day`; of several entries for a participant the last counts. -/
def windowKeepsDay (resolved : List ResolvedParticipantWindow) (participantId date : String) :
    Bool :=
  ((resolved.reverse.find? fun entry => entry.participantId = participantId).bind
    ResolvedParticipantWindow.window).all fun window => window.keepsDate date

/-- `apply_study_window`, as far as it concerns the rows. -/
def applyStudyWindow (rows : List Row) (resolved : List ResolvedParticipantWindow) : List Row :=
  rows.filter fun row => windowKeepsDay resolved row.participantId row.date

/-! ## People -/

/-- `KIDS_SHELL_PACKAGES` -/
def kidsShellPackages : List String :=
  ["com.amazon.tahoe", "com.sencatech.iwawa.iwawahome", "com.google.android.apps.kids.home",
    "com.kiddoware.kidsplace", "com.tcl.kidsmode"]

/-- `SharingStatus` -/
inductive SharingStatus where
  | nonShared
  | shared
deriving DecidableEq, Repr

/-- `SharingEntry` -/
structure SharingEntry where
  participantId : String
  status : SharingStatus
deriving DecidableEq, Repr

/-- The error of `sharing_status_for`. -/
def unknownSharingError (participantId : String) : String :=
  "Person attribution: no device-sharing status for " ++ participantId.quote ++ " (numerical=" ++
    (numericalId participantId).getD "none" ++
    "). The sharing table must cover every device when it is configured."

/-- `sharing_status_for`: the identifier itself, else one of the same number and device. -/
def sharingStatusFor (participantId : String) (sharing : List SharingEntry) :
    Except String SharingStatus :=
  let exact := sharing.find? fun entry => entry.participantId = participantId
  let sameDevice := do
    let id ← numericalId participantId
    sharing.find? fun entry => numericalId entry.participantId = some id &&
      deviceNumber entry.participantId = deviceNumber participantId
  match exact.or sameDevice with
  | some entry => .ok entry.status
  | none => .error (unknownSharingError participantId)

/-- `sharing_partition`: the status of every participant of the rows. -/
def sharingPartition (rows : List Row) (sharing : List SharingEntry) :
    Except String (List (String × SharingStatus)) :=
  (rows.map Row.participantId).reverse.dedup.reverse.mapM fun participantId =>
    (sharingStatusFor participantId sharing).map fun status => (participantId, status)

/-- `is_null_username` -/
def isNullUsername (username : String) : Bool := username = "" || username = "nan"

/-- `is_target_child` -/
def isTargetChild (username : String) : Bool :=
  decide ("target child".toList <:+: username.toList.map Char.toLower)

/-- The user name a row of a shared device has before the survey is asked. -/
def sharedUsername (row : Row) : String :=
  if isNullUsername row.username then
    if row.appPackageName ∈ kidsShellPackages then "Target Child" else "None"
  else row.username

/-- A row of a shared device. -/
def attributeSharedRow (survey : String × Int → Option String) (row : Row) : Row :=
  let username :=
    match survey (row.participantId, row.eventTimestampNs) with
    | some user => user ++ " (From Survey)"
    | none => sharedUsername row
  { row with
    username := username
    interactionType :=
      if row.interactionType = appUsage && !isTargetChild username then
        nonTargetParticipantAppUsage
      else row.interactionType }

/-- A row of a device that one child alone uses. -/
def attributeNonSharedRow (row : Row) : Row :=
  { row with username := if isNullUsername row.username then "Target Child" else row.username }

/-- One row of `attribute_person`. -/
def attributeRow (statusByParticipant : List (String × SharingStatus))
    (survey : String × Int → Option String) (row : Row) : Except String Row :=
  match statusByParticipant.lookup row.participantId with
  | none => .error ("Person attribution: unresolved sharing status for " ++ row.participantId.quote)
  | some .nonShared => .ok (attributeNonSharedRow row)
  | some .shared => .ok (attributeSharedRow survey row)

/-- `attribute_person`, without the counts of its report. -/
def attributePerson (rows : List Row) (statusByParticipant : List (String × SharingStatus))
    (survey : String × Int → Option String) : Except String (List Row) :=
  rows.mapM (attributeRow statusByParticipant survey)

/-! ## Days -/

/-- `DayBoundaryAttribution` -/
inductive DayBoundaryAttribution where
  | attributeToStartDay
  | splitAtLocalMidnight
deriving DecidableEq, Repr

/-- One part of a divided session. -/
def midnightPiece (zone : Zone) (row : Row) (part : Nat) (left right : Int) : Row :=
  let bounded := { row with
    eventTimestampNs := left
    startTimestampNs := some left
    stopTimestampNs := some right
    index := min (row.index + part * 4000000 % 2 ^ 32) (2 ^ 32 - 1) }
  populateTimeColumns
    (if row.durationSeconds.isNone then bounded.blankDuration
    else bounded.publishDuration (wrap64 (right - left))) zone

/-- The parts between neighbouring edges. -/
def midnightPieces (zone : Zone) (row : Row) (edges : List Int) : List Row :=
  (positioned (edges.zip edges.tail)).map fun entry =>
    midnightPiece zone row entry.1 entry.2.1 entry.2.2

/-- The rows that one row is divided into. -/
def splitAtMidnight (calendar : Calendar) (row : Row) : List Row :=
  match row.startTimestampNs, row.stopTimestampNs, calendar.zone row.timezone with
  | some start, some stop, some zone =>
      let boundaries := localMidnightsWithin zone start stop
      if boundaries.isEmpty then [row]
      else midnightPieces zone row (start :: boundaries ++ [stop])
  | _, _, _ => [row]

/-- `split_sessions_at_local_midnight` -/
def splitSessionsAtLocalMidnight (calendar : Calendar) (rows : List Row)
    (rule : DayBoundaryAttribution) : List Row :=
  match rule with
  | .attributeToStartDay => rows
  | .splitAtLocalMidnight => rows.flatMap (splitAtMidnight calendar)

/-- `NO_ACTIVITY_PLACEHOLDER_PACKAGE` -/
def noActivityPlaceholderPackage : String := "com.placeholder.noactivity"

/-- One raw row of `placeholder_day_samples`: the earliest row of its participant and day is kept
at the place where that day was first seen. -/
def recordSample (samples : List Row) (row : Row) : List Row :=
  let ofSameDay := fun sample : Row =>
    decide (sample.participantId = row.participantId ∧ sample.date = row.date)
  if samples.any ofSameDay then
    samples.map fun sample =>
      if ofSameDay sample ∧ row.eventTimestampNs < sample.eventTimestampNs then row else sample
  else samples ++ [row]

/-- `placeholder_day_samples` -/
def placeholderDaySamples (rawRows : List Row) : List Row := rawRows.foldl recordSample []

/-- The placeholder made from the sample of a day. -/
def placeholderRow (calendar : Calendar) (sample : Row) : Row :=
  populateTimeColumns
    { sample with
      interactionType := appUsage
      appPackageName := noActivityPlaceholderPackage
      applicationLabel := "No Activity"
      startTimestampNs := some sample.eventTimestampNs
      stopTimestampNs := some sample.eventTimestampNs
      durationSeconds := some (.finite 0)
      durationMinutes := some (.finite 0)
      dataTimeGapHours := .finite 0
      index := sample.index + 2000000 }
    ((calendar.zone sample.timezone).getD .utc)

/-- The sample's day needs a placeholder: it shows no usage, and the window filter keeps it. -/
def needsPlaceholder (rows : List Row) (windows : Option (List ResolvedParticipantWindow))
    (sample : Row) : Bool :=
  !(rows.any fun row => row.interactionType = appUsage && row.participantId = sample.participantId
    && row.date = sample.date) &&
    windows.all fun resolved => windowKeepsDay resolved sample.participantId sample.date

/-- `add_placeholder_rows_for_samples` -/
def addPlaceholderRowsForSamples (calendar : Calendar) (rows samples : List Row)
    (windows : Option (List ResolvedParticipantWindow)) : List Row :=
  orderAppEpisodes
    (rows ++ (samples.filter (needsPlaceholder rows windows)).map (placeholderRow calendar))

end Chronicle.Pipeline
