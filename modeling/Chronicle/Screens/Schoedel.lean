import Mathlib.Data.List.Destutter
import Chronicle.Library.Machine
import Chronicle.Screens.Construction

/-!
# The prose reconstruction

Episodes of app use within the screen intervals. An episode is opened by an eligible row that names
a package, takes in the later rows of that package, and is completed by the next opener of another
package or by the end of the interval.
-/

namespace Chronicle.Screens

open Chronicle.Library.Bytes Chronicle.Library.Machine Chronicle.Library.StableSort

/-! ## Events and episodes -/

/-- What the prose reconstruction reads of a `RawB05Event` besides. -/
structure RawB05AppEvent extends RawB05Event where
  sourceDataRows : List Nat
  packageName : Option String
  appOpenerEligible : Bool
deriving DecidableEq, Repr

/-- `SchoedelIssueCode` -/
inductive SchoedelIssueCode where
  | screenIntervalWithoutAppLaunch
  | typeOneMissingPackage
deriving DecidableEq, Repr

/-- `SchoedelIssueCode::canonical_id` -/
def SchoedelIssueCode.canonicalId : SchoedelIssueCode → String
  | screenIntervalWithoutAppLaunch => "screen_interval_without_app_launch"
  | typeOneMissingPackage => "type_1_missing_package"

/-- `SchoedelIssue` -/
structure SchoedelIssue where
  participantId : String
  screenIntervalId : String
  sourceDataRow : Option Nat
  code : SchoedelIssueCode
deriving DecidableEq, Repr

/-- The order of the issues of an output. -/
def SchoedelIssue.key (issue : SchoedelIssue) : String ×ₗ String ×ₗ Nat ×ₗ Nat :=
  toLex (issue.participantId, toLex (issue.screenIntervalId,
    toLex ((issue.sourceDataRow.map (· + 1)).getD 0, issue.code.ctorIdx)))

/-- The order of the episodes of an output. -/
def SchoedelEpisodeEvidence.key (episode : SchoedelEpisodeEvidence) : String ×ₗ Int ×ₗ Nat :=
  toLex (episode.participantId, toLex (episode.startNs, episode.startSourceRow))

/-- The order in which the rows of a participant are read. -/
def RawB05AppEvent.key (row : RawB05AppEvent) : Int ×ₗ Nat := toLex (row.ns, row.sourceDataRow)

/-- `SCHOEDEL_PROSE_STRATEGY_ID` -/
def schoedelProseStrategyId : String := "schoedel_2026_app_within_screen_prose_v1"

/-- `row_is_inside_interval` -/
def rowIsInsideInterval (row : RawB05AppEvent) (interval : ScreenIntervalEvidence) : Bool :=
  let afterStart := interval.startNs < row.ns ||
    row.ns = interval.startNs && interval.startBoundarySourceRow < row.sourceDataRow
  let beforeEnd :=
    match interval.stopNs, interval.stopBoundarySourceRow with
    | some stopNs, some stopRow =>
        row.ns < stopNs || row.ns = stopNs && row.sourceDataRow < stopRow
    | none, none => true
    | _, _ => false
  row.participantId = interval.participantId && afterStart && beforeEnd

/-- `OpenSchoedelEpisode` -/
structure OpenSchoedelEpisode where
  opener : RawB05AppEvent
  packageName : String
  associatedRows : List RawB05AppEvent

/-- `SchoedelBoundary` -/
inductive SchoedelBoundary where
  | differentApp
  | screenEnd
  | rightCensored
deriving DecidableEq, Repr

section Reconstruction

variable (sha256 : List UInt8 → List UInt8)

/-- What `schoedel_episode_id` reads of an episode. -/
def SchoedelEpisodeEvidence.material (episode : SchoedelEpisodeEvidence) : List UInt8 :=
  digestField b05FoundationalSemanticsProtocolVersion ++ digestField schoedelProseStrategyId ++
    digestField episode.screenIntervalId ++ digestField episode.packageName ++
    digestField (toString episode.startSourceRow) ++
    digestField ((episode.stopSourceRow.map toString).getD "") ++
    digestField (toString episode.startNs) ++
    digestField ((episode.stopNs.map toString).getD "") ++
    digestField ((episode.rawDurationNs.map toString).getD "") ++
    episode.sourceRows.flatMap (fun row => digestField (toString row)) ++
    digestField episode.completion.canonicalId ++
    digestField (if episode.boundedHeadlineCandidate then "1" else "0")

/-- `schoedel_episode_id` -/
def schoedelEpisodeId (episode : SchoedelEpisodeEvidence) : String :=
  "urn:chronicle:app-episode:" ++ sha256Wire sha256 episode.material

/-- The associated rows in order, without repetitions of a source row. -/
def OpenSchoedelEpisode.rows (open_ : OpenSchoedelEpisode) : List RawB05AppEvent :=
  (sortByKey RawB05AppEvent.key open_.associatedRows).destutter fun a b =>
    a.sourceDataRow ≠ b.sourceDataRow

/-- The episode without its id. The opener is always among the associated rows. -/
def OpenSchoedelEpisode.evidence (interval : ScreenIntervalEvidence) (open_ : OpenSchoedelEpisode)
    (boundary : SchoedelBoundary) : SchoedelEpisodeEvidence :=
  let rows := open_.rows
  let last := rows.getLast?.getD open_.opener
  let bounded : Bool := boundary ≠ .rightCensored
  { episodeId := ""
    participantId := interval.participantId
    packageName := open_.packageName
    screenIntervalId := interval.screenIntervalId
    b05StrategyId := interval.strategyId
    startNs := open_.opener.ns
    stopNs := if bounded then some last.ns else none
    rawDurationNs := if bounded then some (wrap64 (last.ns - open_.opener.ns)) else none
    startSourceRow := open_.opener.sourceDataRow
    stopSourceRow := if bounded then some last.sourceDataRow else none
    sourceRows := sortDedup (rows.flatMap (·.sourceDataRows))
    completion :=
      match boundary with
      | .rightCensored => .rightCensoredScreenInterval
      | .differentApp =>
          if rows.length = 1 then .singletonZeroLength else .lastPackageEventBeforeDifferentApp
      | .screenEnd =>
          if rows.length = 1 then .singletonZeroLength else .lastPackageEventBeforeScreenEnd
    boundedHeadlineCandidate := bounded }

/-- `complete_schoedel_episode` -/
def completeSchoedelEpisode (interval : ScreenIntervalEvidence) (open_ : OpenSchoedelEpisode)
    (boundary : SchoedelBoundary) : SchoedelEpisodeEvidence :=
  let episode := open_.evidence interval boundary
  { episode with episodeId := schoedelEpisodeId sha256 episode }

/-- The package of a row, if it is not blank. -/
def RawB05AppEvent.package (row : RawB05AppEvent) : Option String :=
  row.packageName.filter fun package => !package.isEmpty

/-- The issue of an opener without a package. -/
def missingPackageIssue (interval : ScreenIntervalEvidence) (row : RawB05AppEvent) :
    SchoedelIssue :=
  ⟨interval.participantId, interval.screenIntervalId, some row.sourceDataRow,
    .typeOneMissingPackage⟩

/-- The episode that an opener begins. -/
def RawB05AppEvent.opens (row : RawB05AppEvent) (package : String) : OpenSchoedelEpisode :=
  ⟨row, package, [row]⟩

/-- One more associated row. -/
def OpenSchoedelEpisode.push (open_ : OpenSchoedelEpisode) (row : RawB05AppEvent) :
    OpenSchoedelEpisode :=
  { open_ with associatedRows := open_.associatedRows ++ [row] }

/-- The loop of `reconstruct_schoedel_interval`, with the open episode. -/
def reconstructSchoedelFrom (interval : ScreenIntervalEvidence) :
    Option OpenSchoedelEpisode → List RawB05AppEvent →
      List SchoedelEpisodeEvidence × List SchoedelIssue
  | none, [] => ([], [])
  | some current, [] =>
      ([completeSchoedelEpisode sha256 interval current
        (if interval.rightCensored then .rightCensored else .screenEnd)], [])
  | open_, row :: rest =>
      if row.appOpenerEligible then
        match row.package with
        | none =>
            let later := reconstructSchoedelFrom interval open_ rest
            (later.1, missingPackageIssue interval row :: later.2)
        | some package =>
            match open_ with
            | none => reconstructSchoedelFrom interval (some (row.opens package)) rest
            | some current =>
                if current.packageName ≠ package then
                  let later := reconstructSchoedelFrom interval (some (row.opens package)) rest
                  (completeSchoedelEpisode sha256 interval current .differentApp :: later.1,
                    later.2)
                else reconstructSchoedelFrom interval (some (current.push row)) rest
      else
        match open_ with
        | none => reconstructSchoedelFrom interval none rest
        | some current =>
            if row.packageName = some current.packageName then
              reconstructSchoedelFrom interval (some (current.push row)) rest
            else reconstructSchoedelFrom interval (some current) rest

/-- `reconstruct_schoedel_interval` -/
def reconstructSchoedelInterval (interval : ScreenIntervalEvidence) (rows : List RawB05AppEvent) :
    List SchoedelEpisodeEvidence × List SchoedelIssue :=
  reconstructSchoedelFrom sha256 interval none rows

/-! ## Decisive ties -/

/-- `is_schoedel_app_evidence_candidate` -/
def isSchoedelAppEvidenceCandidate (event : RawB05AppEvent) : Bool :=
  event.appOpenerEligible ||
    event.package.isSome &&
      match event.signal with
      | .screenInteractive | .screenNonInteractive | .keyguardShown | .keyguardHidden
      | .deviceShutdown | .deviceStartup | .combinedScreenInteractiveKeyguardShown
      | .combinedScreenNonInteractiveKeyguardHidden => false
      | _ => true

/-- The rows of an interval, in their order. -/
def memberRows (events : List RawB05AppEvent) (interval : ScreenIntervalEvidence) :
    List RawB05AppEvent :=
  sortByKey RawB05AppEvent.key
    (events.filter fun event => event.timestampNs.isSome && rowIsInsideInterval event interval)

/-- `schoedel_interval_signature` -/
def schoedelIntervalSignature (interval : ScreenIntervalEvidence)
    (participantEvents : List RawB05AppEvent) :
    List SchoedelEpisodeEvidence × List SchoedelIssue :=
  reconstructSchoedelInterval sha256 interval (memberRows participantEvents interval)

/-- The events with another source row at a position. -/
def setSourceRow (events : List RawB05AppEvent) (index row : Nat) : List RawB05AppEvent :=
  events.modify index fun event => { event with sourceDataRow := row }

/-- The positions of the events that pass a test. -/
def positionsWhere (test : RawB05AppEvent → Bool) (events : List RawB05AppEvent) : List Nat :=
  (events.zipIdx.filter fun entry => test entry.1).map Prod.snd

/-- The exchange of a boundary row with a candidate of the same time shows. -/
def boundaryExchangeShows (interval : ScreenIntervalEvidence) (events : List RawB05AppEvent)
    (timestamp : Int) (boundaryRow : Nat) (isStart : Bool) (candidate : Nat) : Bool :=
  let candidateRow := (events[candidate]?.map (·.sourceDataRow)).getD 0
  let boundary := events.findIdx? fun event =>
    event.timestampNs = some timestamp && event.sourceDataRow = boundaryRow
  let moved :=
    match boundary with
    | some index => setSourceRow events index candidateRow
    | none => events
  let counterfactual :=
    if isStart then { interval with startBoundarySourceRow := candidateRow }
    else { interval with stopBoundarySourceRow := some candidateRow }
  schoedelIntervalSignature sha256 counterfactual (setSourceRow moved candidate boundaryRow) ≠
    schoedelIntervalSignature sha256 interval events

/-- A row that may carry app evidence stands at the time of a boundary and their order shows. -/
def boundaryIsDecisive (interval : ScreenIntervalEvidence) (events : List RawB05AppEvent)
    (timestamp : Int) (boundaryRow : Nat) (isStart : Bool) : Bool :=
  (positionsWhere (fun event => event.timestampNs = some timestamp &&
      event.sourceDataRow ≠ boundaryRow && isSchoedelAppEvidenceCandidate event) events).any
    (boundaryExchangeShows sha256 interval events timestamp boundaryRow isStart)

/-- The boundaries of an interval: time, source row, and whether it is the start. -/
def ScreenIntervalEvidence.boundaries (interval : ScreenIntervalEvidence) :
    List (Int × Nat × Bool) :=
  (interval.startNs, interval.startBoundarySourceRow, true) ::
    match interval.stopNs, interval.stopBoundarySourceRow with
    | some stopNs, some stopRow => [(stopNs, stopRow, false)]
    | _, _ => []

/-- The exchange of the source rows at two positions shows. -/
def memberExchangeShows (interval : ScreenIntervalEvidence) (events : List RawB05AppEvent)
    (pair : Nat × Nat) : Bool :=
  let rowAt := fun index => (events[index]?.map (·.sourceDataRow)).getD 0
  schoedelIntervalSignature sha256 interval
      (setSourceRow (setSourceRow events pair.1 (rowAt pair.2)) pair.2 (rowAt pair.1)) ≠
    schoedelIntervalSignature sha256 interval events

/-- The times at which members of the interval stand together and their order shows. -/
def decisiveMemberTimes (interval : ScreenIntervalEvidence) (events : List RawB05AppEvent) :
    List Int :=
  let isMember := fun event : RawB05AppEvent => event.timestampNs.isSome &&
    isSchoedelAppEvidenceCandidate event && rowIsInsideInterval event interval
  ((events.filter isMember).map (·.ns)).dedup.filter fun timestamp =>
    let positions := positionsWhere (fun event => isMember event && event.ns = timestamp) events
    (positions.zip positions.tail).any (memberExchangeShows sha256 interval events)

/-- `schoedel_decisive_equal_timestamp_groups`: participants, intervals and times. -/
def schoedelDecisiveEqualTimestampGroups (events : List RawB05AppEvent)
    (intervals : List ScreenIntervalEvidence) : List (String × String × Int) :=
  (intervals.flatMap fun interval =>
    let participantEvents := events.filter (·.participantId = interval.participantId)
    let boundaryTimes := (interval.boundaries.filter fun boundary =>
      boundaryIsDecisive sha256 interval participantEvents boundary.1 boundary.2.1 boundary.2.2).map
        Prod.fst
    (boundaryTimes ++ decisiveMemberTimes sha256 interval participantEvents).map fun timestamp =>
      (interval.participantId, interval.screenIntervalId, timestamp)).dedup

end Reconstruction

/-! ## Receipts -/

/-- `SchoedelRefusalReason` -/
inductive SchoedelRefusalReason where
  | ambiguousEqualTimestamp
  | unorderableAppRow
  | invalidScreenIntervalDependency
  | schoedelFullOsfMissingPrerequisites
  | capabilityEvidenceNotBoundToInput
deriving DecidableEq, Repr

/-- `SchoedelSourceOrderParticipantDecision` -/
structure SchoedelSourceOrderParticipantDecision where
  participantId : String
  decision : CapabilityDecision
deriving DecidableEq, Repr

/-- `SchoedelSourceOrderResolution` -/
structure SchoedelSourceOrderResolution where
  protocolVersion : String
  rawInputSha256 : String
  evidenceArtifactDigest : Option String
  evidenceAssignmentDigest : Option String
  evidenceBoundToInput : Bool
  participantDecisions : List SchoedelSourceOrderParticipantDecision
  resolutionDigest : String
deriving DecidableEq, Repr

/-- `SchoedelApplicabilityReceiptV1` -/
structure SchoedelApplicabilityReceiptV1 where
  protocolVersion : String := b05FoundationalSemanticsProtocolVersion
  requestedStrategyId : String := schoedelProseStrategyId
  effectiveStrategyId : String := schoedelProseStrategyId
  relation : ScientificRelation
  executable : Bool
  refusalReason : Option SchoedelRefusalReason
  refusalDetail : Option String
  b05IntervalDigest : String
  b05StrategyIds : List Strategy
  equalTimestampSourceOrderPreserved : Bool
  decisiveEqualTimestampGroupCount : Nat
  sourceOrderResolution : Option SchoedelSourceOrderResolution
deriving DecidableEq, Repr

/-- `SCHOEDEL_PROSE_COMPLETION_RULE_IDS` -/
def schoedelProseCompletionRuleIds : List String :=
  ["source_last_same_package_event_before_next_type_1_or_observed_screen_end",
    "chronicle_singleton_zero_length_v1", "chronicle_equal_timestamp_source_row_order_v1",
    "chronicle_right_censored_unbounded_v1"]

/-- `SchoedelReconstructionReceiptV1`; the issue counts are in ascending order of the codes. -/
structure SchoedelReconstructionReceiptV1 where
  protocolVersion : String := "chronicle-schoedel-reconstruction-receipt/v1"
  strategyId : String := schoedelProseStrategyId
  relation : ScientificRelation := .controlledDerivative
  sourceIdentity : String := "doi:10.1017/psy.2026.10083"
  sourceVersion : String := "psychometrika_91_3_final_article"
  sourceLicenseStatus : String := "cc_by_nc_4_0"
  sourceScopeId : String := "published_prose_core_not_full_osf_pipeline"
  adapterId : String := "chronicle_schoedel_2026_app_within_screen_prose_adapter_v1"
  completionRuleIds : List String := schoedelProseCompletionRuleIds
  inputScreenIntervalCount : Nat
  inputEventCount : Nat
  episodeCount : Nat
  boundedEpisodeCount : Nat
  singletonZeroLengthCount : Nat
  rightCensoredEvidenceCount : Nat
  issueCounts : List (String × Nat)
  episodeDigest : String
deriving DecidableEq, Repr

/-- `SchoedelReconstructionOutput` -/
structure SchoedelReconstructionOutput where
  episodes : List SchoedelEpisodeEvidence
  applicability : SchoedelApplicabilityReceiptV1
  reconstructionReceipt : Option SchoedelReconstructionReceiptV1
  issues : List SchoedelIssue
deriving DecidableEq, Repr

/-- `BoundSchoedelProseInput` -/
structure BoundSchoedelProseInput where
  rawEvents : List RawB05AppEvent
  screenIntervals : List ScreenIntervalEvidence
  selectedB05StrategyId : Strategy
  equalTimestampSourceOrderPreserved : Bool
  sourceOrderResolution : Option SchoedelSourceOrderResolution

/-! ## The reconstruction over all intervals -/

namespace BoundSchoedelProseInput

variable (sha256 : List UInt8 → List UInt8) (input : BoundSchoedelProseInput)

/-- The intervals in their order. -/
def intervals : List ScreenIntervalEvidence :=
  sortByKey ScreenIntervalEvidence.key input.screenIntervals

/-- The strategies of the intervals and the selected one, in ascending order of their ids. -/
def b05StrategyIds : List Strategy :=
  (sortByKey Strategy.canonicalId
    (input.intervals.map (·.strategyId) ++ [input.selectedB05StrategyId])).destutter (· ≠ ·)

/-- A receipt with what every receipt of the input says. -/
def receipt (relation : ScientificRelation)
    (refusal : Option (SchoedelRefusalReason × String)) (sourceOrderPreserved : Bool)
    (decisiveCount : Nat) : SchoedelApplicabilityReceiptV1 where
  relation
  executable := refusal.isNone
  refusalReason := refusal.map Prod.fst
  refusalDetail := refusal.map Prod.snd
  b05IntervalDigest := screenIntervalDigest sha256 input.intervals
  b05StrategyIds := input.b05StrategyIds
  equalTimestampSourceOrderPreserved := sourceOrderPreserved
  decisiveEqualTimestampGroupCount := decisiveCount
  sourceOrderResolution := input.sourceOrderResolution

/-- `refused_schoedel` -/
def refusedSchoedel (sourceOrderPreserved : Bool) (decisiveCount : Nat)
    (reason : SchoedelRefusalReason) (detail : String) : SchoedelReconstructionOutput where
  episodes := []
  applicability := input.receipt sha256 .refused (some (reason, detail)) sourceOrderPreserved
    decisiveCount
  reconstructionReceipt := none
  issues := []

/-- The first row that carries app evidence and has no timestamp. -/
def unorderableRow : Option RawB05AppEvent :=
  input.rawEvents.find? fun row =>
    row.timestampNs.isNone && (row.appOpenerEligible || row.package.isSome)

/-- The source order of a participant is known to be preserved. -/
def tieSupported (participantId : String) : Bool :=
  input.sourceOrderResolution.any fun resolution =>
    resolution.participantDecisions.any fun decision =>
      decision.participantId = participantId && decision.decision.effectiveState = .capable

/-- What the receipt says of the source order. -/
def sourceOrderPreserved : Bool :=
  input.equalTimestampSourceOrderPreserved ||
    input.sourceOrderResolution.any fun resolution =>
      !resolution.participantDecisions.isEmpty &&
        resolution.participantDecisions.all fun participant =>
          participant.decision.effectiveState = .capable

/-- The rows of a participant that have a timestamp, in their order. -/
def participantRows (participantId : String) : List RawB05AppEvent :=
  sortByKey RawB05AppEvent.key
    (input.rawEvents.filter fun event =>
      event.timestampNs.isSome && event.participantId = participantId)

/-- The rows of an interval, in their order. -/
def members (interval : ScreenIntervalEvidence) : List RawB05AppEvent :=
  (input.participantRows interval.participantId).filter (rowIsInsideInterval · interval)

/-- The episodes and issues of an interval. -/
def ofInterval (interval : ScreenIntervalEvidence) :
    List SchoedelEpisodeEvidence × List SchoedelIssue :=
  let found := reconstructSchoedelInterval sha256 interval (input.members interval)
  (found.1, found.2 ++
    if found.1.isEmpty then
      [⟨interval.participantId, interval.screenIntervalId, none, .screenIntervalWithoutAppLaunch⟩]
    else [])

end BoundSchoedelProseInput

/-- What the digest of the episodes reads of one episode. -/
def SchoedelEpisodeEvidence.digestMaterial (episode : SchoedelEpisodeEvidence) : List UInt8 :=
  digestField episode.episodeId ++ digestField episode.participantId ++
    digestField episode.packageName ++ digestField episode.screenIntervalId ++
    digestField episode.b05StrategyId.canonicalId ++ digestField (toString episode.startNs) ++
    digestField ((episode.stopNs.map toString).getD "") ++
    digestField episode.completion.canonicalId ++
    episode.sourceRows.flatMap fun row => digestField (toString row)

section Bound

variable (sha256 : List UInt8 → List UInt8) (input : BoundSchoedelProseInput)

/-- `schoedel_episode_digest` -/
def schoedelEpisodeDigest (episodes : List SchoedelEpisodeEvidence) : String :=
  sha256Wire sha256 (episodes.flatMap (·.digestMaterial))

/-- The receipt of the episodes and issues. -/
def schoedelReconstructionReceipt (episodes : List SchoedelEpisodeEvidence)
    (issues : List SchoedelIssue) : SchoedelReconstructionReceiptV1 :=
  let codes := issues.map (·.code.canonicalId)
  { inputScreenIntervalCount := input.intervals.length
    inputEventCount := input.rawEvents.length
    episodeCount := episodes.length
    boundedEpisodeCount := episodes.countP (·.rawDurationNs.isSome)
    singletonZeroLengthCount := episodes.countP (·.completion = .singletonZeroLength)
    rightCensoredEvidenceCount := episodes.countP (·.completion = .rightCensoredScreenInterval)
    issueCounts := (sortByKey id codes.dedup).map fun code => (code, codes.count code)
    episodeDigest := schoedelEpisodeDigest sha256 episodes }

/-- The output of a reconstruction that is not refused. -/
def executedSchoedel (decisiveCount : Nat) : SchoedelReconstructionOutput :=
  let found := input.intervals.map (input.ofInterval sha256)
  let episodes := sortByKey SchoedelEpisodeEvidence.key (found.flatMap Prod.fst)
  let issues := sortByKey SchoedelIssue.key (found.flatMap Prod.snd)
  { episodes
    applicability := input.receipt sha256 .controlledDerivative none input.sourceOrderPreserved
      decisiveCount
    reconstructionReceipt := some (schoedelReconstructionReceipt sha256 input episodes issues)
    issues }

/-- `reconstruct_bound_schoedel_prose` -/
def reconstructBoundSchoedelProse : SchoedelReconstructionOutput :=
  let refused := input.refusedSchoedel sha256
  if input.intervals.any (·.strategyId ≠ input.selectedB05StrategyId) then
    refused input.equalTimestampSourceOrderPreserved 0 .invalidScreenIntervalDependency
      "screen_interval_strategy_mismatch"
  else
    match invalidScreenDependency input.intervals with
    | some detail =>
        refused input.equalTimestampSourceOrderPreserved 0 .invalidScreenIntervalDependency detail
    | none =>
        match input.unorderableRow with
        | some row =>
            refused input.equalTimestampSourceOrderPreserved 0 .unorderableAppRow
              ("source_data_row=" ++ toString row.sourceDataRow)
        | none =>
            if input.sourceOrderResolution.any fun resolution =>
                !resolution.evidenceBoundToInput then
              refused false 0 .capabilityEvidenceNotBoundToInput
                "supplied capability evidence has no claim bound to the raw input digest"
            else
              let groups := schoedelDecisiveEqualTimestampGroups sha256 input.rawEvents
                input.intervals
              if groups ≠ [] ∧ !(input.equalTimestampSourceOrderPreserved ||
                  groups.all fun group => input.tieSupported group.1) then
                refused false groups.length .ambiguousEqualTimestamp
                  "a boundary- or package-consequential timestamp tie lacks stable source order"
              else executedSchoedel sha256 input groups.length

end Bound

end Chronicle.Screens
