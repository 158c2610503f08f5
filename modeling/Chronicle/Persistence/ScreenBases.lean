import Chronicle.Library.Sha256
import Chronicle.Pipeline.ScreenIntervals
import Chronicle.Pipeline.ScreenPolicies

/-!
# Saved screen bases

A screen base pairs the rows of the screen sessions with the construction that the sessions came
from. The check of a reopened base asks the rows to be the intervals one by one; this is when a base
that was just built passes it.
-/

namespace Chronicle.Persistence

open Chronicle.Credit Chronicle.Library Chronicle.Library.Machine Chronicle.Library.Stages
open Chronicle.Library.StableSort Chronicle.Pipeline Chronicle.Screens

/-- `UsageSessionMode` -/
inductive UsageSessionMode where
  | noUsage
  | appUsage
  | screenUsage
  | appAndScreenUsage
deriving DecidableEq, Repr

/-- What the queries under the screen base read of a request. -/
structure ScreenRequest where
  usageSessionMode : UsageSessionMode
  strategy : Strategy
  settings : ScreenSettings
  neutral : NeutralRequest
  calendar : Calendar
  appsForcing : String → Option String
  rows : List Row
  inputKey : String

/-- `ScreenBase`, less its checkpoints. -/
structure ScreenBase where
  inputKey : String
  rows : List ScreenRow
  screenConstruction : ScreenConstructionOutput

/-- The request reads a screen base. -/
def ScreenRequest.screenRequired (request : ScreenRequest) : Bool :=
  request.usageSessionMode = .screenUsage || request.usageSessionMode = .appAndScreenUsage ||
    request.settings.lockedScreenAudioDisposition = .excludeFromPhoneAndAppSessions ||
    request.settings.maximumDurationDisposition = .excludeParticipant

/-- The query `classify_screen_sessions`, under the strategy of the app. -/
def ScreenRequest.screenRows (request : ScreenRequest) : List ScreenRow :=
  let closes := inferScreenSessionSkeletons request.rows
  if closes.isEmpty then []
  else applyScreenSessionPolicies request.settings
    (classifyScreenSessions request.settings request.calendar request.appsForcing request.rows closes)

section Base

variable (sha256 : List UInt8 → List UInt8)

/-- `build_screen_base` -/
def buildScreenBase (request : ScreenRequest) : Except String (Option ScreenBase) :=
  if !request.screenRequired || request.strategy ≠ .chronicleScreenInteractiveV1 then .ok none
  else do
    let construction ← buildNeutralChronicleScreenConstruction sha256 request.neutral request.rows
    return some {
      inputKey := request.inputKey
      rows := request.screenRows
      screenConstruction := construction }

/-- The row is one of the interval. -/
def ScreenRow.Bounds (row : ScreenRow) (interval : ScreenIntervalEvidence) : Prop :=
  row.participantId = interval.participantId ∧ row.startTimestampNs = some interval.startNs ∧
    row.stopTimestampNs = interval.stopNs ∧
    ∀ source ∈ interval.startSourceRows ++ interval.stopSourceRows, source ∈ row.sourceDataRows.iter

instance (row : ScreenRow) (interval : ScreenIntervalEvidence) : Decidable (ScreenRow.Bounds row interval) :=
  inferInstanceAs (Decidable (_ ∧ _ ∧ _ ∧ _))

/-- `validate_screen_base` -/
def validateScreenBase (screen : ScreenBase) (expectedInputDigest : String)
    (expectedInputRowCount : Nat) : Except String Unit := do
  validateScreenConstructionOutput sha256 screen.screenConstruction expectedInputDigest
    .chronicleScreenInteractiveV1 expectedInputRowCount
  require (screen.rows.length = screen.screenConstruction.intervals.length)
    (screenValidationError "screen_row_interval_count_mismatch")
  (screen.rows.zip screen.screenConstruction.intervals).forM fun pair =>
    require (ScreenRow.Bounds pair.1 pair.2) (screenValidationError "screen_row_boundary_mismatch")

end Base

section Accepted

variable {sha256 : List UInt8 → List UInt8} {request : ScreenRequest} {base : ScreenBase}

theorem screenRows_eq_policies : request.screenRows =
    applyScreenSessionPolicies request.settings (classifyScreenSessions request.settings
      request.calendar request.appsForcing request.rows
      (inferScreenSessionSkeletons request.rows)) := by
  rw [ScreenRequest.screenRows]
  cases inferScreenSessionSkeletons request.rows with
  | nil => simp [classifyScreenSessions, applyScreenSessionPolicies, overCapParticipants]
  | cons close closes => rfl

/-- A split participant stream has no executable construction. -/
theorem validateScreenConstructionOutput_executable {output : ScreenConstructionOutput}
    {digest : String} {strategy : Strategy} {rowCount : Nat}
    (h : validateScreenConstructionOutput sha256 output digest strategy rowCount = .ok ()) :
    output.applicability.executable = true := by
  unfold validateScreenConstructionOutput validateApplicability at h
  simp only [check_and, require_eq_ok] at h
  exact h.1.2.2.1.1

section Paired

variable {rows : List Row} {count : Nat}

/-- A session is known by any data row of it. -/
theorem session_eq_of_source (htable : CanonicalTable count rows) {close close' : ScreenSessionClose}
    (h : close ∈ inferScreenSessionSkeletons rows) (h' : close' ∈ inferScreenSessionSkeletons rows)
    {source : Nat} (hsource : source ∈ close.state.sourceDataRows.iter)
    (hsource' : source ∈ close'.state.sourceDataRows.iter) : close = close' := by
  have : Std.Symm fun a b : ScreenSessionClose =>
      ∀ source ∈ a.state.sourceDataRows.iter, source ∈ b.state.sourceDataRows.iter → a = b :=
    ⟨fun _ _ hab source ha hb => (hab source hb ha).symm⟩
  have hpairs : (inferScreenSessionSkeletons rows).Pairwise fun a b =>
      ∀ source ∈ a.state.sourceDataRows.iter, source ∈ b.state.sourceDataRows.iter → a = b :=
    (pairwise_disjoint_sources htable).imp fun hdisjoint source ha hb =>
      absurd hb (hdisjoint source ha)
  exact hpairs.forall_of_forall (fun _ _ _ _ _ => rfl) h h' source hsource hsource'

theorem startBoundary_mem_interval (htable : CanonicalTable count rows) {close : ScreenSessionClose}
    (h : close ∈ inferScreenSessionSkeletons rows) :
    close.startBoundary ∈ (close.interval sha256 rows).startSourceRows := by
  obtain ⟨_, _, hrun⟩ := running_of_mem htable h
  exact mem_sortDedup.mpr (headD_mem_iter hrun.startLineage)

/-- Rows that are those of the intervals one by one are in their order. -/
theorem intervals_eq_of_bounds (htable : CanonicalTable count rows)
    {published : ScreenSessionClose → ScreenRow}
    (hsources : ∀ close, (published close).sourceDataRows = close.state.sourceDataRows)
    {intervals : List ScreenIntervalEvidence}
    (hperm : intervals.Perm ((inferScreenSessionSkeletons rows).map (·.interval sha256 rows)))
    (hbounds : ∀ pair ∈ ((inferScreenSessionSkeletons rows).map published).zip intervals,
      ScreenRow.Bounds pair.1 pair.2) :
    intervals = (inferScreenSessionSkeletons rows).map (·.interval sha256 rows) := by
  refine List.ext_getElem hperm.length_eq fun k hk hk' => ?_
  have hclose : k < (inferScreenSessionSkeletons rows).length := by simpa using hk'
  obtain ⟨close, hmem, hinterval⟩ := List.mem_map.mp (hperm.mem_iff.mp (List.getElem_mem hk))
  have hpair : (published (inferScreenSessionSkeletons rows)[k], intervals[k]) ∈
      ((inferScreenSessionSkeletons rows).map published).zip intervals := by
    refine List.mem_iff_getElem.mpr ⟨k, by simp [hclose, hk], ?_⟩
    rw [List.getElem_zip, List.getElem_map]
  have hheld := (hbounds _ hpair).2.2.2 close.startBoundary
    (List.mem_append_left _ (hinterval ▸ startBoundary_mem_interval htable hmem))
  rw [hsources] at hheld
  have hsame := session_eq_of_source htable (List.getElem_mem hclose) hmem hheld
    (startBoundary_mem_session htable hmem)
  rw [List.getElem_map, hsame, hinterval]

/-- A published session is the row of its interval just if it is not cut. -/
theorem bounds_publishedSession {settings : ScreenSettings} {calendar : Calendar}
    {appsForcing : String → Option String} (htable : CanonicalTable count rows)
    {close : ScreenSessionClose} (h : close ∈ inferScreenSessionSkeletons rows) :
    ScreenRow.Bounds (publishedSession settings calendar appsForcing rows close)
        (close.interval sha256 rows) ↔
      (settings.maximumDurationDisposition = .truncate → ∀ stop ∈ close.stopTimestampNs,
        settings.overCap close.state.startTimestampNs stop = true →
          saturate64 (close.state.startTimestampNs + settings.capNs) = stop) := by
  have hspans : (publishedSession settings calendar appsForcing rows close).Spans rows close
      (close.publishedStop settings) := spans_policySession spans_classifySession
  have hsources : ∀ source ∈ (close.interval sha256 rows).startSourceRows ++
      (close.interval sha256 rows).stopSourceRows,
      source ∈ (publishedSession settings calendar appsForcing rows close).sourceDataRows.iter :=
    fun source hsource => hspans.sources ▸ mem_session_of_mem_interval htable h hsource
  rw [ScreenRow.Bounds, hspans.participant, hspans.start, hspans.stop]
  refine Iff.trans ⟨fun hbounds => hbounds.2.2.1, fun hstop => ⟨rfl, rfl, hstop, hsources⟩⟩
    publishedStop_eq_iff

end Paired

/-- The rows of the sessions are their intervals: the streams are whole, the sessions touch in the
order of the input, no two intervals have the same digest, and no policy drops or cuts a session. -/
structure ScreenRequest.Idle (sha256 : List UInt8 → List UInt8) (request : ScreenRequest) : Prop where
  whole : request.neutral.fragmentedParticipants = []
  ordered : SourceOrdered request.rows
  ids : ((inferScreenSessionSkeletons request.rows).map fun close =>
    (close.interval sha256 request.rows).screenIntervalId).Nodup
  kept : NoneDropped request.settings (inferScreenSessionSkeletons request.rows)
  uncut : request.settings.maximumDurationDisposition = .truncate →
    ∀ close ∈ inferScreenSessionSkeletons request.rows, ∀ stop ∈ close.stopTimestampNs,
      request.settings.overCap close.state.startTimestampNs stop = true →
        saturate64 (close.state.startTimestampNs + request.settings.capNs) = stop

/-- The base of a request whose streams are whole. -/
def ScreenRequest.wholeBase (sha256 : List UInt8 → List UInt8) (request : ScreenRequest) :
    ScreenBase where
  inputKey := request.inputKey
  rows := request.screenRows
  screenConstruction := chronicleOutput sha256
    (request.neutral.input.chronicleReceipt.sealed sha256) request.neutral.rawEvents.length
    (sortByKey ScreenIntervalEvidence.key
      ((inferScreenSessionSkeletons request.rows).map (·.interval sha256 request.rows)))
    (sortByKey ScreenConstructionIssue.key (chronicleOrphanStopIssues request.rows))

theorem buildScreenBase_whole (hrequired : request.screenRequired = true)
    (hstrategy : request.strategy = .chronicleScreenInteractiveV1)
    (hwhole : request.neutral.fragmentedParticipants = []) :
    buildScreenBase sha256 request = .ok (some (request.wholeBase sha256)) := by
  rw [buildScreenBase, if_neg (by simp [hrequired, hstrategy]),
    buildNeutralChronicleScreenConstruction_whole hwhole]
  rfl

/-- What is asked of a base whose streams are whole. -/
theorem validateScreenBase_whole
    (htable : CanonicalTable request.neutral.rawEvents.length request.rows)
    (hwhole : request.neutral.fragmentedParticipants = []) :
    validateScreenBase sha256 (request.wholeBase sha256) request.neutral.rawInputSha256
        request.neutral.rawEvents.length = .ok () ↔ request.Idle sha256 := by
  have hperm := perm_sortByKey ScreenIntervalEvidence.key
    ((inferScreenSessionSkeletons request.rows).map (·.interval sha256 request.rows))
  have hinputs : (sortByKey ScreenIntervalEvidence.key ((inferScreenSessionSkeletons
      request.rows).map (·.interval sha256 request.rows))).Perm
        (((inferScreenSessionSkeletons request.rows).map (·.intervalInput request.rows)).map
          (·.interval sha256)) := by
    rw [List.map_map]
    exact hperm
  have hnative : validateScreenConstructionOutput sha256 (chronicleOutput sha256
      (request.neutral.input.chronicleReceipt.sealed sha256) request.neutral.rawEvents.length
      (sortByKey ScreenIntervalEvidence.key
        ((inferScreenSessionSkeletons request.rows).map (·.interval sha256 request.rows)))
      (sortByKey ScreenConstructionIssue.key (chronicleOrphanStopIssues request.rows)))
      request.neutral.rawInputSha256 .chronicleScreenInteractiveV1
      request.neutral.rawEvents.length = .ok () ↔ _ :=
    validateScreenConstructionOutput_native hinputs
  have hids : (((inferScreenSessionSkeletons request.rows).map
      (·.interval sha256 request.rows)).map (·.screenIntervalId)).Nodup ↔
      ((inferScreenSessionSkeletons request.rows).map fun close =>
        (close.interval sha256 request.rows).screenIntervalId).Nodup := by
    rw [List.map_map]
    rfl
  have hsources : ∀ close, (publishedSession request.settings request.calendar request.appsForcing
      request.rows close).sourceDataRows = close.state.sourceDataRows := fun close =>
    (spans_policySession spans_classifySession).sources
  simp only [validateScreenBase, check_and, require_eq_ok, forM_eq_ok]
  rw [ScreenRequest.wholeBase, hnative, screenRows_eq_policies, chronicleOutput, length_sortByKey, List.length_map,
    length_screenRows_iff]
  -- the kept rows line up with the sorted intervals only when the intervals were sorted before
  constructor
  · rintro ⟨hvalid, hkept, hbounds⟩
    rw [screenRows_eq hkept] at hbounds
    have hsorted := intervals_eq_of_bounds htable hsources hperm hbounds
    rw [hsorted] at hvalid hbounds
    refine ⟨hwhole, (intervals_ordered_iff htable).mp ⟨hvalid.ascending, hvalid.independent⟩,
      hids.mp hvalid.ids, hkept, fun htruncate close hclose => ?_⟩
    rw [List.zip_map'] at hbounds
    exact (bounds_publishedSession htable hclose).mp
      (hbounds _ (List.mem_map_of_mem hclose)) htruncate
  · intro hidle
    obtain ⟨hascending, hindependent⟩ :
        (((inferScreenSessionSkeletons request.rows).map (·.interval sha256 request.rows)).Pairwise
          fun a b => a.key < b.key) ∧
          invalidScreenDependency
            ((inferScreenSessionSkeletons request.rows).map (·.interval sha256 request.rows)) =
              none := (intervals_ordered_iff htable).mpr hidle.ordered
    have hsorted := sortByKey_eq_self (hascending.imp le_of_lt)
    rw [hsorted, screenRows_eq hidle.kept, List.zip_map']
    refine ⟨⟨hascending, hids.mpr hidle.ids, ?_, hindependent,
      pairwise_chronicleOrphanStopIssues htable⟩, hidle.kept, ?_⟩
    · intro interval hinterval
      obtain ⟨close, hclose, rfl⟩ := List.mem_map.mp hinterval
      exact boundaryShaped_session htable hclose
    · intro pair hpair
      obtain ⟨close, hclose, rfl⟩ := List.mem_map.mp hpair
      exact (bounds_publishedSession htable hclose).mpr fun htruncate =>
        hidle.uncut htruncate close hclose

/-- A base that was just built is accepted just if the rows of the sessions are their intervals. -/
theorem validateScreenBase_iff
    (htable : CanonicalTable request.neutral.rawEvents.length request.rows)
    (hbuild : buildScreenBase sha256 request = .ok (some base)) :
    validateScreenBase sha256 base request.neutral.rawInputSha256
        request.neutral.rawEvents.length = .ok () ↔ request.Idle sha256 := by
  rw [buildScreenBase] at hbuild
  split at hbuild
  · cases hbuild
  · obtain ⟨construction, hconstruction, hbase⟩ := bind_eq_ok.mp hbuild
    cases hbase
    by_cases hwhole : request.neutral.fragmentedParticipants = []
    · cases (buildNeutralChronicleScreenConstruction_whole hwhole).symm.trans hconstruction
      exact validateScreenBase_whole htable hwhole
    · constructor
      · intro hvalid
        obtain ⟨output, houtput, hrefused⟩ : ∃ output,
            buildNeutralChronicleScreenConstruction sha256 request.neutral request.rows =
              .ok output ∧ output.applicability.executable = false :=
          buildNeutralChronicleScreenConstruction_fragmented hwhole
        cases houtput.symm.trans hconstruction
        rw [validateScreenBase, check_and] at hvalid
        cases hrefused.symm.trans (validateScreenConstructionOutput_executable hvalid.1)
      · intro hidle
        exact absurd hidle.whole hwhole

end Accepted

/-! ## A session that is cut -/

/-- A screen event of one participant. -/
def screenEventRow (source : Nat) (interactionType : String) (eventTimestampNs : Int) : Row where
  sourceDataRows := [⟨source, source⟩]
  participantId := "p"
  interactionType
  eventTimestampNs

/-- A screen that is on for two hours under a cap of so many minutes, which cuts longer sessions. -/
def cappedRequest (maximumDurationMinutes : Binary64) : ScreenRequest where
  usageSessionMode := .appAndScreenUsage
  strategy := .chronicleScreenInteractiveV1
  settings := {
    autoLockTimeoutSeconds := .finite 30
    autoLockToleranceSeconds := .finite 5
    manualLockMaxTailSeconds := .finite 2
    keyguardNearStopSeconds := .finite 1
    lockedScreenAudioDisposition := .include
    sessionClassificationPolicy := .none
    maximumDurationMinutes
    maximumDurationDisposition := .truncate }
  neutral := {
    rawInputSha256 := ""
    rawEvents := [
      { participantId := "p", timestampNs := some 0, sourceDataRow := 1,
        rawInteractionType := "Screen Interactive", signal := .screenInteractive },
      { participantId := "p", timestampNs := some 7200000000000, sourceDataRow := 2,
        rawInteractionType := "Screen Non-Interactive", signal := .screenNonInteractive }]
    fragmentedParticipants := []
    optionsDigest := "" }
  calendar := { zone := fun _ => none, parseDate := fun _ => none }
  appsForcing := fun _ => none
  rows := [screenEventRow 1 "Screen Interactive" 0,
    screenEventRow 2 "Screen Non-Interactive" 7200000000000]
  inputKey := ""

theorem canonicalTable_cappedRequest (minutes : Binary64) :
    CanonicalTable (cappedRequest minutes).neutral.rawEvents.length
      (cappedRequest minutes).rows where
  ordered := List.pairwise_pair.mpr (by decide)
  lineage row hrow := by
    have hsources : ∀ source ∈ [1, 2], 0 < source ∧ source ≤ 2 := by decide
    rcases List.mem_pair.mp hrow with rfl | rfl
    · exact ⟨List.pairwise_singleton _ _, by decide, fun source hsource =>
        hsources source (List.mem_of_mem_take (i := 1) hsource)⟩
    · exact ⟨List.pairwise_singleton _ _, by decide, fun source hsource =>
        hsources source (List.mem_of_mem_drop (i := 1) hsource)⟩
  disjoint := List.pairwise_pair.mpr (by decide)

/-- A base that a finished run leaves is refused when the run cut a session at the cap. -/
theorem capped_base_refused :
    CanonicalTable (cappedRequest (.finite 60)).neutral.rawEvents.length
      (cappedRequest (.finite 60)).rows ∧
    ∃ base, buildScreenBase Sha256.sha256 (cappedRequest (.finite 60)) = .ok (some base) ∧
      validateScreenBase Sha256.sha256 base (cappedRequest (.finite 60)).neutral.rawInputSha256
        (cappedRequest (.finite 60)).neutral.rawEvents.length ≠ .ok () := by
  refine ⟨canonicalTable_cappedRequest _, _, buildScreenBase_whole rfl rfl rfl, fun hvalid => ?_⟩
  have hidle := (validateScreenBase_whole (canonicalTable_cappedRequest _) rfl).mp hvalid
  have huncut := hidle.uncut rfl
  revert huncut
  decide +kernel

/-- A cap that no session reaches. -/
theorem validateScreenBase_iff_uncapped :
    validateScreenBase Sha256.sha256 ((cappedRequest (.finite 180)).wholeBase Sha256.sha256)
        (cappedRequest (.finite 180)).neutral.rawInputSha256
        (cappedRequest (.finite 180)).neutral.rawEvents.length = .ok () ↔
      (cappedRequest (.finite 180)).Idle Sha256.sha256 :=
  validateScreenBase_iff (canonicalTable_cappedRequest _) (buildScreenBase_whole rfl rfl rfl)

end Chronicle.Persistence
