import Mathlib.Data.List.Dedup
import Chronicle.Matcher.OverlapSweep
import Chronicle.Pipeline.Annotations

/-!
# Reconstructed episodes

The stages from the matcher's index lists to the layered episode table: the episodes are written
onto their start rows, their durations are classified against the minimum and the maximum, excluded
packages are relabelled, and concurrent episodes are split into layers. A set of names is the list
of its members.
-/

namespace Chronicle.Pipeline

open Chronicle.Library Chronicle.Library.Machine Chronicle.Library.StableSort Chronicle.Matcher

/-- `ACTIVITY_PAUSED` -/
def activityPaused : String := "Activity Paused"

/-- `EpisodeCloseReason::output_label` -/
def outputLabel : EpisodeCloseReason → String
  | .sameAppStop | .gesisOriginalStop | .eyesTripletClose => "same_app_stop_event"
  | .otherAppStop => "other_app_stop_event"
  | .activityStoppedFallback => "activity_stopped_event"
  | .foregroundHandover => "another_app_opened"
  | .samePackageBackgrounded => "app_moved_to_background"
  | .screenNonInteractive | .screenLockedPastTimeout => "screen_turned_off"
  | .eyesDeviceStateBoundary => "device_powered_off_or_idle"
  | .gesisNextGlobalEvent => "assumed_end_at_next_event"
  | .eyesNextBlockAssumed => "assumed_end_at_next_activity"
  | .gesisTimeout => "assumed_end_at_timeout"
  | .draxlerInactivityTimeout => "assumed_end_after_inactivity"
  | .endOfStream => "recording_ended_while_open"
  | .unobserved => "no_end_found"

/-- `MatcherOutput`, without the evidence that only receipts read. -/
structure MatcherOutput where
  startIndices : List Nat := []
  stopStartIndices : List Nat := []
  stopEventIndices : List Nat := []
  missingIndices : List Nat := []
  stopReasons : List EpisodeCloseReason := []
  missingReasons : List EpisodeCloseReason := []
  stopTimestampsNs : List (Option Int) := []
  startTimestampsNs : List (Option Int) := []
  selectedNonresumeClosedIndices : List Nat := []
deriving DecidableEq

/-- `MatcherOutput::splits_episodes` -/
def MatcherOutput.splitsEpisodes (result : MatcherOutput) : Bool :=
  result.startTimestampsNs.any Option.isSome

/-! ## Materialization -/

/-- The row at an event index. An index past the table, where the source would panic, reads a blank
row. -/
def rowAt (rows : List Row) (index : Nat) : Row := rows.getD index {}

theorem rowAt_eq {rows : List Row} {index : Nat} (h : index < rows.length) :
    rowAt rows index = rows[index] := by
  rw [rowAt, List.getD_eq_getElem?_getD, List.getElem?_eq_getElem h, Option.getD_some]

theorem rowAt_mem {rows : List Row} {index : Nat} (h : index < rows.length) :
    rowAt rows index ∈ rows :=
  rowAt_eq h ▸ List.getElem_mem h

/-- The evidence of a search over the events from `first` up to `last`; `rangeDigest` is
`inline_lineage_search_range_digest` over the suffix digests of the table. -/
def searchEvidence (rangeDigest : Nat → Nat → String) (reason participantId : String)
    (first last : Nat) : LineageSearchEvidence :=
  { protocolVersion := "chronicle-lineage-search/v1"
    reason := reason
    indexSpace := "pipeline-event-order"
    startParticipantId := participantId
    startEventIndex := first
    endEventIndexExclusive := last
    candidateEventCount := last - first
    candidateChainDigest := rangeDigest first last }

/-- `start_timestamp_ns` of the start row is its own event instant. -/
def markStart (rows : List Row) (index : Nat) : List Row :=
  rows.modify index fun row => { row with startTimestampNs := some row.eventTimestampNs }

/-- A row that carries the interval which ends at the given instant. -/
def Row.withStop (row : Row) (stopSourceRows : SourceDataRows)
    (searches : List LineageSearchEvidence) (beginNs : Option Int) (stopNs : Int)
    (reason : Option EpisodeCloseReason) : Row :=
  { row with
    sourceDataRows := row.sourceDataRows.merge stopSourceRows
    lineageSearches := searches
    startTimestampNs := beginNs.or row.startTimestampNs
    stopTimestampNs := some stopNs
    appUsageEndReason := (reason.map outputLabel).or row.appUsageEndReason }

/-- The rows being written, the start rows written so far, and the rows of later fragments. -/
structure Materialization where
  rows : List Row
  writtenStarts : List Nat
  fragmentRows : List Row

/-- One closed episode: the first interval is written onto the start row, and a further interval of
the same start becomes a row of its own. -/
def writeStop (result : MatcherOutput) (rangeDigest : Nat → Nat → String) (m : Materialization)
    (episode : Nat × Nat) : Materialization :=
  let position := episode.1
  let startIndex := episode.2
  let stopIndex := result.stopEventIndices.getD position 0
  let startRow := rowAt m.rows startIndex
  let stopRow := rowAt m.rows stopIndex
  let evidence := fun reason => searchEvidence rangeDigest reason startRow.participantId
    ((min startIndex stopIndex + 1) % 2 ^ 32) ((max startIndex stopIndex + 1) % 2 ^ 32)
  let stopNs := (result.stopTimestampsNs[position]?).join.getD stopRow.eventTimestampNs
  let beginNs := (result.startTimestampsNs[position]?).join
  let reason := result.stopReasons[position]?
  if result.splitsEpisodes && startIndex ∈ m.writtenStarts then
    { m with
      fragmentRows := m.fragmentRows ++
        [startRow.withStop stopRow.sourceDataRows [evidence "device-state-split-fragment"] beginNs
          stopNs reason] }
  else
    { m with
      rows := m.rows.modify startIndex fun row => row.withStop stopRow.sourceDataRows
        (row.lineageSearches ++ [evidence "selected-qualifying-stop"]) beginNs stopNs reason
      writtenStarts :=
        if result.splitsEpisodes then startIndex :: m.writtenStarts else m.writtenStarts }

/-- A row whose episode has no observed end. A filtered row publishes no start either. -/
def Row.withoutStop (row : Row) (filteredPackages : List String) (search : LineageSearchEvidence)
    (reason : Option EpisodeCloseReason) : Row :=
  { row with
    lineageSearches := row.lineageSearches ++ [search]
    interactionType := endOfUsageMissing
    appUsageEndReason := (reason.map outputLabel).or row.appUsageEndReason
    startTimestampNs :=
      if row.appPackageName ∈ filteredPackages then none else row.startTimestampNs
    stopTimestampNs := none
    durationSeconds := none
    durationMinutes := none
    rawEpisodeStartTimestampNs := row.startTimestampNs
    rawEpisodeStopTimestampNs := none
    rawEpisodeDurationNs := none
    minimumDurationQualified := none }

/-- One unclosed episode. -/
def markMissing (result : MatcherOutput) (filteredPackages : List String)
    (rangeDigest : Nat → Nat → String) (rows : List Row) (episode : Nat × Nat) : List Row :=
  rows.modify episode.2 fun row =>
    row.withoutStop filteredPackages
      (searchEvidence rangeDigest "no-qualifying-stop" row.participantId
        ((episode.2 + 1) % 2 ^ 32) (rows.length % 2 ^ 32))
      (result.missingReasons[episode.1]?)

/-- The entries of a list, each after its position. -/
def positioned {α : Type} (l : List α) : List (Nat × α) := l.zipIdx.map Prod.swap

/-- `materialize_candidate_episodes_in_place`; `searchDigest` gives the range digests of the table
it is applied to. -/
def materializeCandidateEpisodes (searchDigest : List Row → Nat → Nat → String) (rows : List Row)
    (result : MatcherOutput) (filteredPackages : List String) : List Row :=
  let started := result.startIndices.foldl markStart rows
  let closed := (positioned result.stopStartIndices).foldl (writeStop result (searchDigest rows))
    ⟨started, [], []⟩
  let missing := (positioned result.missingIndices).foldl
    (markMissing result filteredPackages (searchDigest rows)) closed.rows
  missing ++ closed.fragmentRows

/-! ## Duration classification -/

/-- `checked_minimum_duration_threshold_ns`, as `minimum_duration_threshold_ns` reads it. -/
def minimumDurationThresholdNs (seconds : Binary64) : Option Int :=
  if !seconds.isFinite || seconds.isNegative || seconds.eqIeee (.finite 0) then none
  else
    match seconds.mulConst 1000000000 with
    | .finite nanoseconds =>
        let rounded := Binary64.roundHalfAway nanoseconds
        if rounded < 2 ^ 63 ∧ 0 < rounded then some rounded else none
    | _ => none

/-- `MinimumDurationComparator` -/
inductive MinimumDurationComparator where
  | strictLt
  | inclusiveLe
deriving DecidableEq, Repr

/-- `MinimumDurationComparator::qualifies` -/
def MinimumDurationComparator.qualifies (comparator : MinimumDurationComparator)
    (durationNs thresholdNs : Int) : Bool :=
  match comparator with
  | strictLt => durationNs < thresholdNs
  | inclusiveLe => durationNs ≤ thresholdNs

/-- `MinimumDurationDisposition` -/
inductive MinimumDurationDisposition where
  | chronicleBlankKeepRow
  | retainAndCredit
  | retainButExclude
  | dropRow
deriving DecidableEq, Repr

/-- `MicroUseClassificationPolicy` -/
inductive MicroUseClassificationPolicy where
  | none
  | okoshiLt5s
deriving DecidableEq, Repr

/-- `OKOSHI_MICRO_USE_THRESHOLD_NS` -/
def okoshiMicroUseThresholdNs : Int := 5000000000

/-- The micro-use label of a bounded episode. -/
def MicroUseClassificationPolicy.classify (policy : MicroUseClassificationPolicy)
    (durationNs : Int) : Option MicroUseClassification :=
  match policy with
  | none => Option.none
  | okoshiLt5s =>
      if durationNs ≤ 0 then some .notClassifiable
      else if durationNs < okoshiMicroUseThresholdNs then some .microUse
      else some .notMicroUse

/-- `MaximumDurationDisposition` -/
inductive MaximumDurationDisposition where
  | notApplicable
  | flagAndRetain
  | retainButExclude
  | truncateToThreshold
  | dropRow
deriving DecidableEq, Repr

/-- `MaximumDurationRowStage` -/
structure MaximumDurationRowStage where
  explicit : Bool
  thresholdNs : Option Int
  disposition : MaximumDurationDisposition
deriving DecidableEq, Repr

/-- `MaximumDurationRowStage::omitted` -/
def MaximumDurationRowStage.omitted : MaximumDurationRowStage := ⟨false, none, .notApplicable⟩

/-- `checked_raw_duration_ns` -/
def checkedRawDurationNs (startNs stopNs : Int) : Except String (Option Int) :=
  if stopNs - startNs < 0 then .ok none
  else if Fits64 (stopNs - startNs) then .ok (some (stopNs - startNs))
  else .error "pipeline_refused:b06=maximum_duration_raw_duration_unrepresentable"

/-- `truncated_stop_ns` -/
def truncatedStopNs (startNs thresholdNs : Int) : Except String Int :=
  if Fits64 (startNs + thresholdNs) then .ok (startNs + thresholdNs)
  else .error "pipeline_refused:b06=maximum_duration_effective_endpoint_unrepresentable"

/-- `duration_ns as f64 / 1_000_000_000.0` -/
def durationSecondsOf (durationNs : Int) : Binary64 := (Binary64.ofInt durationNs).divConst 1000000000

/-- The row publishes the duration in both columns. -/
def Row.publishDuration (row : Row) (durationNs : Int) : Row :=
  { row with
    durationSeconds := some (durationSecondsOf durationNs)
    durationMinutes := some ((durationSecondsOf durationNs).divConst 60) }

/-- The row publishes no duration. -/
def Row.blankDuration (row : Row) : Row :=
  { row with
    durationSeconds := none
    durationMinutes := none }

/-- The qualification of a bounded episode against the maximum, before any disposition. -/
def Row.withMaximumQualification (row : Row) (exceeds : Bool) : Row :=
  { row with
    maximumDurationQualified := some exceeds
    maximumDurationAggregateEligible := true
    maximumDurationDropPending := false
    maximumDurationTrimmedNs := none
    effectiveEndpointReason := none }

/-- The arm `TruncateToThreshold`. The minimum-duration blank owns the published duration, and a
filtered row publishes no timing at all. -/
def truncateRow (row : Row) (isFiltered : Bool) (rawDurationNs thresholdNs effectiveStop : Int) :
    Row × Bool :=
  let blankWins := row.minimumDurationBlankApplied
  let trimmed := { row with
    maximumDurationTrimmedNs := some (wrap64 (rawDurationNs - thresholdNs)) }
  if isFiltered then (trimmed, false)
  else
    let ended := { trimmed with
      stopTimestampNs := some effectiveStop
      effectiveEndpointReason := some .maximumDurationTruncationBoundary }
    (if blankWins then ended else ended.publishDuration thresholdNs, true)

/-- The generic stage on a row whose raw span is known. -/
def applyMaximumDisposition (row : Row) (isFiltered : Bool)
    (disposition : MaximumDurationDisposition) (rawStart rawDurationNs thresholdNs : Int) :
    Except String (Row × Bool) :=
  let exceeds := decide (rawDurationNs > thresholdNs)
  let row := row.withMaximumQualification exceeds
  if !exceeds then .ok (row, false)
  else
    match disposition with
    | .notApplicable | .flagAndRetain => .ok (row, false)
    | .retainButExclude => .ok ({ row with maximumDurationAggregateEligible := false }, false)
    | .truncateToThreshold => do
        let effectiveStop ← truncatedStopNs rawStart thresholdNs
        pure (truncateRow row isFiltered rawDurationNs thresholdNs effectiveStop)
    | .dropRow => .ok ({ row with maximumDurationDropPending := true }, false)

/-- The checked span of an explicit selection; `none` also stands for a negative span. -/
def MaximumDurationRowStage.checkedSpan (stage : MaximumDurationRowStage) (rawStart rawStop : Int) :
    Except String (Option Int) :=
  if stage.explicit then checkedRawDurationNs rawStart rawStop else .ok none

/-- `apply_maximum_duration_to_row`: the row, and whether a published temporal cell changed. -/
def applyMaximumDurationToRow (row : Row) (isFiltered : Bool) (stage : MaximumDurationRowStage) :
    Except String (Row × Bool) :=
  match row.rawEpisodeStartTimestampNs, row.rawEpisodeStopTimestampNs with
  | some rawStart, some rawStop => do
      let checkedSpan ← stage.checkedSpan rawStart rawStop
      match stage.thresholdNs with
      | none => pure (row, false)
      | some thresholdNs =>
          -- A negative span stays bounded and never exceeds a positive threshold.
          let rawDurationNs := checkedSpan.getD (saturate64 (rawStop - rawStart))
          applyMaximumDisposition row isFiltered stage.disposition rawStart rawDurationNs thresholdNs
  | _, _ => .ok (row, false)

/-- The options that `classify_episode_durations` reads. -/
structure DurationRules where
  microUse : MicroUseClassificationPolicy := .none
  minimumUsageDuration : Binary64 := .finite 0
  comparator : MinimumDurationComparator := .strictLt
  disposition : MinimumDurationDisposition := .chronicleBlankKeepRow
  maximum : MaximumDurationRowStage := .omitted
deriving DecidableEq

/-- The row is a selected start: a resume, or one of the listed closed starts. -/
def isSelectedStart (selectedNonresumeClosedIndices : List Nat) (index : Nat) (row : Row) : Bool :=
  row.interactionType = activityResumed || index ∈ selectedNonresumeClosedIndices

/-- An unbounded episode takes its raw start along. -/
def classifyMissing (microUse : MicroUseClassificationPolicy) (row : Row) : Row :=
  if row.interactionType = endOfUsageMissing ∧
      (row.rawEpisodeStartTimestampNs.isSome ∨ row.startTimestampNs.isSome) then
    { row with
      microUseClassification :=
        if microUse = .none then row.microUseClassification else some .notClassifiable
      rawEpisodeStartTimestampNs := row.rawEpisodeStartTimestampNs.or row.startTimestampNs
      rawEpisodeStopTimestampNs := none
      rawEpisodeDurationNs := none
      minimumDurationQualified := none }
  else row

/-- The raw evidence of a bounded episode, with the minimum-duration flags at their defaults. -/
def Row.withRawEpisode (row : Row) (start stop durationNs : Int) (qualifies : Bool) : Row :=
  { row with
    rawEpisodeStartTimestampNs := some start
    rawEpisodeStopTimestampNs := some stop
    rawEpisodeDurationNs := some durationNs
    minimumDurationQualified := some qualifies
    minimumDurationAggregateEligible := true
    minimumDurationBlankApplied := false
    concurrentSubintervalFloorBlankApplied := false
    minimumDurationDropPending := false }

/-- What the disposition does to an episode below the minimum. -/
def MinimumDurationDisposition.apply (disposition : MinimumDurationDisposition) (row : Row) : Row :=
  match disposition with
  | chronicleBlankKeepRow => { row.blankDuration with minimumDurationBlankApplied := true }
  | retainAndCredit => row
  | retainButExclude => { row with minimumDurationAggregateEligible := false }
  | dropRow => { row with minimumDurationDropPending := true }

/-- A bounded episode, up to the maximum-duration stage. -/
def classifyBounded (filteredPackages : List String) (rules : DurationRules) (row : Row)
    (start stop : Int) : Row :=
  let isFiltered := decide (row.appPackageName ∈ filteredPackages)
  let durationNs := saturate64 (stop - start)
  let qualifies := (minimumDurationThresholdNs rules.minimumUsageDuration).any
    (rules.comparator.qualifies durationNs)
  let evidenced := { row.withRawEpisode start stop durationNs qualifies with
    interactionType := if isFiltered then filteredAppUsage else appUsage
    microUseClassification := rules.microUse.classify durationNs }
  let published :=
    if isFiltered then evidenced.clearTiming else evidenced.publishDuration durationNs
  if qualifies then rules.disposition.apply published else published

/-- The row as `classify_episode_durations` leaves it; a selected start has both bounds here, and
the source panics on one without. -/
def classifyRow (filteredPackages : List String) (rules : DurationRules)
    (selectedNonresumeClosedIndices : List Nat) (index : Nat) (row : Row) : Except String Row :=
  let row := classifyMissing rules.microUse row
  if isSelectedStart selectedNonresumeClosedIndices index row then
    let classified := classifyBounded filteredPackages rules row (row.startTimestampNs.getD 0)
      (row.stopTimestampNs.getD 0)
    if rules.maximum.explicit then
      (applyMaximumDurationToRow classified (decide (row.appPackageName ∈ filteredPackages))
        rules.maximum).map Prod.fst
    else .ok classified
  else .ok row

/-- The row stays in the table: pauses go, and selected starts without both bounds. -/
def keepsClassified (selectedNonresumeClosedIndices : List Nat) (entry : Nat × Row) : Bool :=
  entry.2.interactionType ≠ activityPaused &&
    (!isSelectedStart selectedNonresumeClosedIndices entry.1 entry.2 ||
      entry.2.startTimestampNs.isSome && entry.2.stopTimestampNs.isSome)

/-- `classify_episode_durations` -/
def classifyEpisodeDurations (rows : List Row) (filteredPackages : List String)
    (rules : DurationRules) (selectedNonresumeClosedIndices : List Nat) :
    Except String (List Row) :=
  ((positioned rows).filter (keepsClassified selectedNonresumeClosedIndices)).mapM fun entry =>
    classifyRow filteredPackages rules selectedNonresumeClosedIndices entry.1 entry.2

/-! ## Inclusion, order and layers -/

/-- `timing_blanked_packages` -/
def timingBlankedPackages (filteredPackages backgroundApps : List String) : List String :=
  filteredPackages.filter fun package => package ∉ backgroundApps

/-- What `apply_app_inclusion_policy` does to one row that it keeps. -/
def includeRow (filteredPackages filteredApplicationLabels backgroundApps : List String)
    (row : Row) : Row :=
  if row.appPackageName ∉ filteredPackages ∧ row.applicationLabel ∉ filteredApplicationLabels then
    row
  else if row.interactionType = appUsage ∧ row.appPackageName ∈ backgroundApps then
    { row with interactionType := filteredAppBackgroundUsage }
  else if row.interactionType = appUsage then
    { row.blankDuration with interactionType := filteredAppUsage }
  else if row.interactionType = activityStopped then
    { row.clearTiming with interactionType := filteredStopped }
  else row.clearTiming

/-- `apply_app_inclusion_policy` -/
def applyAppInclusionPolicy (rows : List Row)
    (filteredPackages filteredApplicationLabels backgroundApps : List String) : List Row :=
  (rows.filter fun row => !row.minimumDurationDropPending && !row.maximumDurationDropPending).map
    (includeRow filteredPackages filteredApplicationLabels backgroundApps)

/-- `order_app_episodes` -/
def orderAppEpisodes (rows : List Row) : List Row :=
  sortByKey (fun row => toLex (row.eventTimestampNs, row.index)) rows

/-- The row takes part in the concurrency sweep. -/
def isLayered (filteredPackages : List String) (row : Row) : Bool :=
  row.interactionType = appUsage && row.appPackageName ∉ filteredPackages

/-- The participants of the rows, in ascending order. -/
def rowParticipants (rows : List Row) : List String :=
  sortByKey id (rows.map Row.participantId).dedup

/-- `split_overlapping_sessions`, with its failure as the error of the stage. -/
def splitSessions (rows : List Row) : Except String (List LayeredSession) :=
  match splitOverlappingSessions (rows.map fun row => row.startTimestampNs.getD 0)
      (rows.map fun row => row.stopTimestampNs.getD 0) with
  | .ok sessions => .ok sessions
  | .error (.error message) => .error ("split_overlapping_sessions: " ++ message)
  | .error (.panicked message) => .error message

/-- `UsageLayer` as the column shows it. -/
def layerLabel : UsageLayer → String
  | .primary => "primary"
  | .secondary => "secondary"

/-- The row of one layered piece of an episode. -/
def layeredRow (subintervalThresholdNs : Option Int) (applyMinimumToSubintervals : Bool) (row : Row)
    (session : LayeredSession) : Row :=
  let durationNs := wrap64 (session.stopNs - session.startNs)
  let preserveBlank := row.minimumDurationBlankApplied
  let floorBlank := !preserveBlank && applyMinimumToSubintervals &&
    subintervalThresholdNs.any fun thresholdNs => durationNs < thresholdNs
  let bounded := { row with
    startTimestampNs := some session.startNs
    stopTimestampNs := some session.stopNs
    concurrentSubintervalFloorBlankApplied := floorBlank
    usageLayer := some (layerLabel session.layer) }
  if preserveBlank || floorBlank then bounded.blankDuration else bounded.publishDuration durationNs

/-- The options that `segment_concurrent_usage` reads. -/
structure ConcurrencyRules where
  modelConcurrentUsage : Bool := false
  applyMinimumToSubintervals : Bool := false
deriving DecidableEq, Repr

/-- The layered pieces of one participant's episodes. -/
def layerParticipant (filteredPackages : List String) (rules : ConcurrencyRules)
    (minimumUsageDuration : Binary64) (rows : List Row) (participantId : String) :
    Except String (List Row) := do
  let episodes := rows.filter fun row =>
    isLayered filteredPackages row && row.participantId = participantId
  let sessions ← splitSessions episodes
  pure (sessions.map fun session =>
    layeredRow (minimumDurationThresholdNs minimumUsageDuration) rules.applyMinimumToSubintervals
      (rowAt episodes session.sessionIndex) session)

/-- `segment_concurrent_usage` -/
def segmentConcurrentUsage (rows : List Row) (filteredPackages backgroundApps : List String)
    (rules : ConcurrencyRules) (minimumUsageDuration : Binary64) : Except String (List Row) :=
  if !rules.modelConcurrentUsage && backgroundApps.isEmpty then .ok (orderAppEpisodes rows)
  else do
    let layered ← (rowParticipants (rows.filter (isLayered filteredPackages))).mapM
      (layerParticipant filteredPackages rules minimumUsageDuration rows)
    let others := rows.filter fun row => !isLayered filteredPackages row
    pure (orderAppEpisodes (others ++ layered.flatten))

end Chronicle.Pipeline
