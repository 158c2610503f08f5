import Chronicle.Credit.Substrate
import Chronicle.Pipeline.Clock
import Chronicle.Pipeline.Reconstruction

/-!
# Screen sessions

The native screen chain: a state machine for each participant cuts the canonical rows into sessions,
the sessions are classified by how they end, and the screen policies drop, shorten and label them.
-/

namespace Chronicle.Pipeline

open Chronicle.Credit Chronicle.Library Chronicle.Library.Machine Chronicle.Library.StableSort

/-! ## Vocabulary -/

/-- `LOCK_SCREEN_EVENTS` -/
def lockScreenEvents : List String := ["Keyguard Shown", "Screen Interactive/Keyguard Shown"]

/-- `UNLOCK_EVENTS` -/
def unlockEvents : List String :=
  ["Keyguard Hidden", "User Unlocked", "Screen Non-Interactive/Keyguard Hidden"]

/-- `FOREGROUND_EVENTS` -/
def foregroundEvents : List String := ["Activity Resumed", "Filtered App Resumed"]

/-- `MEANINGFUL_ACTIVITY_EVENTS` -/
def meaningfulActivityEvents : List String :=
  ["Activity Resumed", "Filtered App Resumed", "User Interaction", "Shortcut Invocation",
    "Chooser Action", "App Component Used", "User Unlocked", "Keyguard Hidden"]

/-- `SCREEN_USAGE` -/
def screenUsage : String := "Screen Usage"

/-! ## The state machine -/

/-- `ScreenState` -/
structure ScreenState where
  startIndex : Nat
  startTimestampNs : Int
  startTimezone : String
  startSourceDataRows : SourceDataRows
  lockScreenSeen : Bool
  unlockedSeen : Bool := false
  foregroundPkg : Option String := none
  appObserved : Option Bool := some false
  lastMeaningfulTsNs : Option Int := none
  lastMeaningfulPkg : Option String := none
  sourceDataRows : SourceDataRows
deriving DecidableEq

/-- `ScreenSessionClose` -/
structure ScreenSessionClose where
  state : ScreenState
  stopTimestampNs : Option Int := none
  stopEventType : Option String := none
  stopIndex : Option Nat := none
  stopSourceDataRows : SourceDataRows := []
deriving DecidableEq

/-- The row opens a screen session. -/
def Row.startsScreen (row : Row) : Bool := row.interactionType ∈ screenStartEvents

/-- The row ends a screen session. -/
def Row.stopsScreen (row : Row) : Bool := row.interactionType ∈ screenStopEvents

/-- The package of a row that names one. -/
def Row.package (row : Row) : Option String :=
  if row.appPackageName.isEmpty then none else some row.appPackageName

/-- The session that the row opens. -/
def ScreenState.opened (index : Nat) (row : Row) : ScreenState where
  startIndex := index
  startTimestampNs := row.eventTimestampNs
  startTimezone := row.timezone
  startSourceDataRows := row.sourceDataRows
  lockScreenSeen := row.interactionType ∈ lockScreenEvents
  sourceDataRows := row.sourceDataRows

/-- The session after one more start of it. -/
def ScreenState.restarted (state : ScreenState) (row : Row) : ScreenState :=
  { state with
    sourceDataRows := state.sourceDataRows.merge row.sourceDataRows
    startSourceDataRows := state.startSourceDataRows.merge row.sourceDataRows }

/-- The session after a row within it. -/
def ScreenState.extended (state : ScreenState) (row : Row) : ScreenState :=
  let foreground : Bool := row.interactionType ∈ foregroundEvents
  let meaningful : Bool := row.interactionType ∈ meaningfulActivityEvents
  let foregroundPkg := if foreground then row.package else state.foregroundPkg
  { state with
    sourceDataRows := state.sourceDataRows.merge row.sourceDataRows
    lockScreenSeen := row.interactionType ∈ lockScreenEvents || state.lockScreenSeen
    unlockedSeen := row.interactionType ∈ unlockEvents || state.unlockedSeen
    foregroundPkg
    -- a blank resume neither takes back an app that was seen nor shows that there was none
    appObserved :=
      if foreground then
        if row.package.isSome then some true
        else if state.appObserved = some true then some true
        else none
      else state.appObserved
    lastMeaningfulTsNs := if meaningful then some row.eventTimestampNs else state.lastMeaningfulTsNs
    lastMeaningfulPkg :=
      if meaningful then row.package.or foregroundPkg else state.lastMeaningfulPkg }

/-- The session that the row ends. -/
def ScreenState.closedBy (state : ScreenState) (index : Nat) (row : Row) : ScreenSessionClose where
  state
  stopTimestampNs := some row.eventTimestampNs
  stopEventType := some row.interactionType
  stopIndex := some index
  stopSourceDataRows := row.sourceDataRows

/-- What a row does to the session of its participant, and the session it ends. -/
def screenRowStep (index : Nat) (row : Row) (current : Option ScreenState) :
    Option ScreenState × Option ScreenSessionClose :=
  match current with
  | none => (if row.startsScreen then some (.opened index row) else none, none)
  | some state =>
      if row.startsScreen then (some (state.restarted row), none)
      else if row.stopsScreen then (none, some ((state.extended row).closedBy index row))
      else (some (state.extended row), none)

/-- The open session of each participant, and the sessions that have ended. -/
structure ScreenWalk where
  states : String → Option ScreenState := fun _ => none
  closes : List ScreenSessionClose := []

/-- The loop body of `infer_screen_session_skeletons` -/
def screenStep (rows : List Row) (walk : ScreenWalk) (index : Nat) : ScreenWalk :=
  let row := rowAt rows index
  let (next, closed) := screenRowStep index row (walk.states row.participantId)
  { states := Function.update walk.states row.participantId next
    closes := walk.closes ++ closed.toList }

/-- The participant of a session. -/
def ScreenSessionClose.participantId (rows : List Row) (close : ScreenSessionClose) : String :=
  (rowAt rows close.state.startIndex).participantId

/-- The order of the sessions. -/
def ScreenSessionClose.key (rows : List Row) (close : ScreenSessionClose) : String ×ₗ Int ×ₗ Nat :=
  toLex (close.participantId rows, toLex (close.state.startTimestampNs, close.state.startIndex))

/-- The walk over all rows. -/
def screenWalk (rows : List Row) : ScreenWalk := (List.range rows.length).foldl (screenStep rows) {}

/-- The sessions that no row ends. -/
def openSessions (rows : List Row) : List ScreenSessionClose :=
  (rows.map (·.participantId)).dedup.filterMap fun participantId =>
    ((screenWalk rows).states participantId).map fun state => { state }

/-- `infer_screen_session_skeletons` -/
def inferScreenSessionSkeletons (rows : List Row) : List ScreenSessionClose :=
  sortByKey (ScreenSessionClose.key rows) ((screenWalk rows).closes ++ openSessions rows)

/-! ## Classification -/

/-- A row of the screen output; the columns are those that only it reads. -/
structure ScreenRow extends Row where
  screenUsageEndReason : Option String := none
  screenUsageEndReasonConfidence : Option Binary64 := none
  screenUsageStopEventType : Option String := none
  screenUsageLastActivityTimestampNs : Option Int := none
  screenUsageTailGapSeconds : Option Binary64 := none
  screenUsageForegroundAppPackage : Option String := none
  screenUsageAppObserved : Option Bool := none
  screenUsageSessionClassification : Option String := none
  screenUsageAppsForcingScreenOpenLabel : Option String := none
  screenUsageLockScreenOnly : Option Nat := none

/-- `LockedScreenAudioDisposition` -/
inductive LockedScreenAudioDisposition where
  | include
  | excludeFromPhoneAndAppSessions
deriving DecidableEq, Repr

/-- `ScreenSessionMaximumDurationDisposition` -/
inductive ScreenSessionMaximumDurationDisposition where
  | none
  | truncate
  | excludeParticipant
deriving DecidableEq, Repr

/-- `ScreenSessionClassificationPolicy` -/
inductive ScreenSessionClassificationPolicy where
  | none
  | phoneCheckInclusive15s
  | nullNoAppStrictGt15sVsApp
deriving DecidableEq, Repr

/-- The settings of the classification and of the policies. -/
structure ScreenSettings where
  autoLockTimeoutSeconds : Binary64
  autoLockToleranceSeconds : Binary64
  manualLockMaxTailSeconds : Binary64
  keyguardNearStopSeconds : Binary64
  lockedScreenAudioDisposition : LockedScreenAudioDisposition
  sessionClassificationPolicy : ScreenSessionClassificationPolicy
  maximumDurationMinutes : Binary64
  maximumDurationDisposition : ScreenSessionMaximumDurationDisposition

/-- `index_keyguard_events`, for one participant. -/
def keyguardTimestamps (rows : List Row) (participantId : String) : List Int :=
  sortByKey id ((rows.filter fun row =>
    row.interactionType ∈ lockScreenEvents ∧ row.participantId = participantId).map
      (·.eventTimestampNs))

/-- `ns as f64 / 1e9` -/
def nsToSeconds (ns : Int) : Binary64 := (Binary64.ofInt ns).divConst 1000000000

/-- A keyguard event is near the stop. -/
def keyguardNearStop (settings : ScreenSettings) (timestamps : List Int) (stop : Int) : Bool :=
  let window := (settings.keyguardNearStopSeconds.mulConst 1000000000).ceilToI64
  let first := saturate64 (stop - window)
  let last := saturate64 (stop + window)
  ((timestamps.takeWhile (· ≤ last)).drop (timestamps.takeWhile (· < first)).length).any
    fun timestamp => settings.keyguardNearStopSeconds.ge (nsToSeconds (wrap64 (stop - timestamp))).abs

section Classification

variable (settings : ScreenSettings) (keyguard : List Int)

/-- Why the session ended and how sure that is, and whether only the lock screen was shown. -/
def endReason (close : ScreenSessionClose) (stop : Int) (forcingLabel : String)
    (tailGap : Option Binary64) : String × Binary64 × Nat :=
  let state := close.state
  if close.stopEventType = some "Screen Non-Interactive/Manual Hardware Button" then
    ("manual_hardware_button", .finite 1, 0)
  else if close.stopEventType = some "Screen Non-Interactive/Aborted Unlock" then
    ("aborted_unlock", .finite 1, 0)
  else if close.stopEventType = some "Screen Non-Interactive/Idle Timeout" then
    ("idle_timeout", .finite 1, 0)
  else if state.lockScreenSeen ∧ !state.unlockedSeen ∧ state.appObserved = some false then
    ("lock_screen_only", .ofRat (95 / 100), 1)
  else if tailGap.any fun gap =>
      !forcingLabel.isEmpty && settings.autoLockTimeoutSeconds.lt gap then
    ("app_kept_awake_or_extended", .ofRat (9 / 10), 0)
  else if tailGap.any fun gap => settings.manualLockMaxTailSeconds.ge gap then
    ("probable_manual_lock", .ofRat (85 / 100), 0)
  else if tailGap.any fun gap =>
      settings.autoLockToleranceSeconds.ge (gap.sub settings.autoLockTimeoutSeconds).abs then
    ("probable_auto_lock", .ofRat (9 / 10), 0)
  else if state.lockScreenSeen ∧ keyguardNearStop settings keyguard stop then
    ("probable_manual_lock", .ofRat (7 / 10), 0)
  else if tailGap.isSome then ("extended_idle_or_unknown", .finite (1 / 2), 0)
  else ("unknown", .finite (1 / 4), 0)

/-- The row of a session before its end is looked at. -/
def sessionRow (calendar : Calendar) (rows : List Row) (close : ScreenSessionClose) : ScreenRow :=
  let state := close.state
  let startRow := rowAt rows state.startIndex
  let durationSeconds := close.stopTimestampNs.map fun stop =>
    nsToSeconds (wrap64 (stop - state.startTimestampNs))
  let row : Row :=
    { startRow with
      sourceDataRows := state.sourceDataRows
      interactionType := screenUsage
      startTimestampNs := some state.startTimestampNs
      stopTimestampNs := close.stopTimestampNs
      durationSeconds
      durationMinutes := durationSeconds.map (·.divConst 60)
      applicationLabel := ""
      appPackageName := state.foregroundPkg.getD ""
      dataTimeGapHours := .finite 0
      eventTimestampNs := state.startTimestampNs
      timezone := state.startTimezone
      index := startRow.index + 1000000 }
  { toRow := ((calendar.zone row.timezone).map (populateTimeColumns row)).getD row
    screenUsageStopEventType := close.stopEventType
    screenUsageLastActivityTimestampNs := state.lastMeaningfulTsNs
    screenUsageForegroundAppPackage := state.foregroundPkg
    screenUsageAppObserved := state.appObserved
    screenUsageLockScreenOnly := some 0 }

/-- The row of a session. -/
def classifySession (calendar : Calendar) (rows : List Row) (appsForcing : String → Option String)
    (close : ScreenSessionClose) : ScreenRow :=
  let session := sessionRow calendar rows close
  match close.stopTimestampNs with
  | none =>
      { session with
        screenUsageEndReason := some "missing_stop"
        screenUsageEndReasonConfidence := some (.finite 1) }
  | some stop =>
      let lastPackage := (close.state.lastMeaningfulPkg.or close.state.foregroundPkg).getD ""
      let forcingLabel := (appsForcing lastPackage).getD ""
      let tailGap := close.state.lastMeaningfulTsNs.map fun timestamp =>
        nsToSeconds (wrap64 (stop - timestamp))
      let reason := endReason settings keyguard close stop forcingLabel tailGap
      { session with
        screenUsageTailGapSeconds := tailGap
        screenUsageAppsForcingScreenOpenLabel :=
          if forcingLabel.isEmpty then none else some forcingLabel
        screenUsageEndReason := some reason.1
        screenUsageEndReasonConfidence := some reason.2.1
        screenUsageLockScreenOnly := some reason.2.2 }

end Classification

/-- The session passed behind a lock screen that was never unlocked. -/
def ScreenState.staysLocked (state : ScreenState) : Bool :=
  state.lockScreenSeen && !state.unlockedSeen

/-- `classify_screen_sessions` -/
def classifyScreenSessions (settings : ScreenSettings) (calendar : Calendar)
    (appsForcing : String → Option String) (rows : List Row) (closes : List ScreenSessionClose) :
    List ScreenRow :=
  (closes.filter fun close =>
    !(settings.lockedScreenAudioDisposition = .excludeFromPhoneAndAppSessions &&
      close.state.staysLocked)).map fun close =>
    classifySession settings (keyguardTimestamps rows (close.participantId rows)) calendar rows
      appsForcing close

/-! ## Policies -/

/-- The longest session, in nanoseconds. -/
def ScreenSettings.capNs (settings : ScreenSettings) : Int :=
  (settings.maximumDurationMinutes.mulConst 60000000000).roundToI64

/-- A session of these bounds is longer than the cap. -/
def ScreenSettings.overCap (settings : ScreenSettings) (start stop : Int) : Bool :=
  settings.capNs < saturate64 (stop - start)

/-- The row is bounded and longer than the cap. -/
def Row.isOverCap (settings : ScreenSettings) (row : Row) : Bool :=
  row.startTimestampNs.any fun start => row.stopTimestampNs.any (settings.overCap start)

/-- A session that is too long, cut at the cap. -/
def truncateSession (settings : ScreenSettings) (session : ScreenRow) : ScreenRow :=
  match session.startTimestampNs, session.stopTimestampNs with
  | some start, some stop =>
      if settings.overCap start stop then
        let stop := saturate64 (start + settings.capNs)
        { session with
          stopTimestampNs := some stop
          durationSeconds := some (settings.maximumDurationMinutes.mulConst 60)
          durationMinutes := some settings.maximumDurationMinutes
          screenUsageLastActivityTimestampNs :=
            session.screenUsageLastActivityTimestampNs.map (min · stop)
          screenUsageTailGapSeconds := none
          -- evidence of the whole session is no evidence of a part of it
          screenUsageAppObserved := none
          screenUsageEndReason := some "duration_cap"
          screenUsageEndReasonConfidence := some (.finite 1)
          screenUsageStopEventType := none }
      else session
  | _, _ => session

/-- The label of a session under the classification policy. -/
def sessionLabel (policy : ScreenSessionClassificationPolicy) (session : ScreenRow) :
    Option String :=
  match policy with
  | .none => none
  | .phoneCheckInclusive15s =>
      if session.durationSeconds.any fun seconds => (Binary64.finite 15).ge seconds then
        some "phone_check"
      else none
  | .nullNoAppStrictGt15sVsApp =>
      if session.screenUsageAppObserved = some true then some "app"
      else if session.screenUsageAppObserved = some false ∧
          session.durationSeconds.any fun seconds => (Binary64.finite 15).lt seconds then
        some "null"
      else none

/-- What the policies make of a session that stays. -/
def policySession (settings : ScreenSettings) (session : ScreenRow) : ScreenRow :=
  let session :=
    if settings.maximumDurationDisposition = .truncate then truncateSession settings session
    else session
  { session with
    screenUsageSessionClassification := sessionLabel settings.sessionClassificationPolicy session }

/-- The participants with a session that is too long. -/
def overCapParticipants (settings : ScreenSettings) (sessions : List ScreenRow) : List String :=
  (sessions.filter fun session => session.toRow.isOverCap settings).map (·.participantId)

/-- `apply_screen_session_policies` -/
def applyScreenSessionPolicies (settings : ScreenSettings) (sessions : List ScreenRow) :
    List ScreenRow :=
  let sessions :=
    if settings.lockedScreenAudioDisposition = .excludeFromPhoneAndAppSessions then
      sessions.filter fun session => session.screenUsageLockScreenOnly ≠ some 1
    else sessions
  let sessions :=
    if settings.maximumDurationDisposition = .excludeParticipant then
      sessions.filter fun session => session.participantId ∉ overCapParticipants settings sessions
    else sessions
  sessions.map (policySession settings)

end Chronicle.Pipeline
