import Chronicle.Library.Stages
import Chronicle.Screens.Applicability

/-!
# Screen construction outputs

The canonical adapter turns the intervals of the native screen chain into a construction output with
its receipts, and the validator of a stored output derives every part of it again.
-/

namespace Chronicle.Screens

open Chronicle.Library.Bytes Chronicle.Library.StableSort Chronicle.Library.Stages

/-! ## Outputs -/

/-- `ScreenConstructionReceiptV1`; the issue counts are in ascending order of the codes. -/
structure ScreenConstructionReceiptV1 where
  protocolVersion : String := b05FoundationalSemanticsProtocolVersion
  strategyId : Strategy
  relation : ScientificRelation
  sourceIdentity : String
  sourceArtifactSha256 : Option String
  sourceLicenseStatus : String
  inputRowCount : Nat
  participantCount : Nat
  intervalCount : Nat
  sessionCount : Nat
  glanceCount : Nat
  rightCensoredCount : Nat
  issueCounts : List (String × Nat)
  intervalDigest : String
deriving DecidableEq, Repr

/-- `ScreenConstructionOutput` -/
structure ScreenConstructionOutput where
  intervals : List ScreenIntervalEvidence
  applicability : B05ApplicabilityReceiptV1
  constructionReceipt : Option ScreenConstructionReceiptV1
  issues : List ScreenConstructionIssue
deriving DecidableEq, Repr

/-- `ScreenConstructionIssueCode::canonical_id` -/
def ScreenConstructionIssueCode.canonicalId : ScreenConstructionIssueCode → String
  | chronicleOrphanStop => "chronicle_orphan_stop"
  | unmatchedGlanceStopNoPreviousStart => "unmatched_glance_stop_no_previous_start"
  | unmatchedGlanceStopPreviousNotStart => "unmatched_glance_stop_previous_not_start"
  | unmatchedGlanceStartNextNotStop => "unmatched_glance_start_next_not_stop"
  | unmatchedGlanceStartNoNextStop => "unmatched_glance_start_no_next_stop"
  | unmatchedSessionStopNoPreviousStart => "unmatched_session_stop_no_previous_start"
  | unmatchedSessionStopPreviousNotStart => "unmatched_session_stop_previous_not_start"
  | unmatchedSessionStartNextNotStop => "unmatched_session_start_next_not_stop"
  | unmatchedSessionStartNoNextStop => "unmatched_session_start_no_next_stop"
  | zhuScreenInteractiveNextNotKeyguardHidden => "screen_interactive_next_not_keyguard_hidden"
  | zhuScreenInteractiveNoNextRow => "screen_interactive_no_next_row"
  | zhuOrphanStop => "zhu_orphan_stop"

/-- The order of the issues of an output. -/
def ScreenConstructionIssue.key (issue : ScreenConstructionIssue) : String ×ₗ Nat ×ₗ Nat :=
  toLex (issue.participantId, toLex (issue.sourceDataRow, issue.code.ctorIdx))

/-- The order of the intervals of an output. -/
def ScreenIntervalEvidence.key (interval : ScreenIntervalEvidence) : String ×ₗ Int ×ₗ Nat :=
  toLex (interval.participantId, toLex (interval.startNs, interval.startBoundarySourceRow))

/-- How often each code occurs among the issues. -/
def issueCounts (issues : List ScreenConstructionIssue) : List (String × Nat) :=
  let codes := issues.map (·.code.canonicalId)
  (sortByKey id codes.dedup).map fun code => (code, codes.count code)

/-- What the digest of the intervals reads of one interval. -/
def ScreenIntervalEvidence.material (interval : ScreenIntervalEvidence) : List UInt8 :=
  digestField interval.screenIntervalId ++ digestField interval.participantId ++
    digestField interval.strategyId.canonicalId ++ digestField interval.kind.canonicalId ++
    digestField (toString interval.startNs) ++
    digestField ((interval.stopNs.map toString).getD "") ++
    digestField (toString interval.startBoundarySourceRow) ++
    digestField ((interval.stopBoundarySourceRow.map toString).getD "") ++
    interval.startSourceRows.flatMap (fun row => digestField (toString row)) ++ digestField "|" ++
    interval.stopSourceRows.flatMap (fun row => digestField (toString row)) ++
    digestField interval.closeReason.canonicalId ++
    digestField (if interval.leftCensored then "1" else "0") ++
    digestField (if interval.rightCensored then "1" else "0")

/-- `PARRY_TOTH_SOURCE_ARTIFACT_SHA256` -/
def parryTothSourceArtifactSha256 : String :=
  "sha256:99787f1c01499dfe335283eff4bc067a4da0246475cc3238ffe80fc5cfff792f"

/-- The source of a strategy: its identity, its artifact and its licence status. -/
def Strategy.sourceMetadata : Strategy → String × Option String × String
  | chronicleScreenInteractiveV1 =>
      ("chronicle_feature_baseline_080801a", none, "GPL-3.0-only_project_native")
  | parryToth2025SessionGlanceV1 =>
      ("parry_toth_2025_doi_10.5117/CCR2025.1.8.PARR_osf_revision_2",
        some parryTothSourceArtifactSha256,
        "article_CC-BY-4.0_code_license_unset_independent_implementation")
  | zhu2018UnlockLockV1 =>
      ("zhu_2018_arxiv_1711.09408v1_doi_10.1177/2050157917748351", none,
        "paper_rule_independent_implementation")
  | unlockToLockV1 =>
      ("literature_direct_unlock_to_lock_rule_family_v1", none,
        "paper_rules_independent_implementation")
  | unlockToOffOrLockV1 =>
      ("literature_direct_unlock_to_off_or_lock_rule_family_v1", none,
        "paper_rules_independent_implementation")

/-- The participants of a receipt that have a name. -/
def B05ApplicabilityReceiptV1.namedParticipants (receipt : B05ApplicabilityReceiptV1) : Nat :=
  receipt.participantDecisions.countP fun participant => !participant.participantId.isEmpty

/-! ## The order of intervals -/

/-- The interval cannot be read by a stage that depends on it. -/
def ScreenIntervalEvidence.misshapen (interval : ScreenIntervalEvidence) : Bool :=
  interval.screenIntervalId.isEmpty ||
    interval.stopNs.isSome != interval.stopBoundarySourceRow.isSome ||
    interval.rightCensored != interval.stopNs.isNone ||
    interval.stopNs.any fun stop => stop < interval.startNs

/-- The later interval begins before the earlier one of the same participant has ended. -/
def ScreenIntervalEvidence.overlaps (earlier later : ScreenIntervalEvidence) : Bool :=
  let end_ := earlier.stopNs.getD 9223372036854775807
  earlier.participantId = later.participantId &&
    (later.startNs < end_ ||
      later.startNs = end_ &&
        earlier.stopBoundarySourceRow.any fun row => later.startBoundarySourceRow < row)

/-- `invalid_screen_dependency` -/
def invalidScreenDependency (intervals : List ScreenIntervalEvidence) : Option String :=
  match intervals.find? (·.misshapen) with
  | some interval => some ("screen_interval_id=" ++ interval.screenIntervalId)
  | none =>
      (intervals.zip intervals.tail).findSome? fun pair =>
        if pair.1.overlaps pair.2 then
          some ("overlapping_screen_intervals=" ++ pair.1.screenIntervalId ++ "," ++
            pair.2.screenIntervalId)
        else none

section Output

variable (sha256 : List UInt8 → List UInt8)

/-- `screen_interval_digest` -/
def screenIntervalDigest (intervals : List ScreenIntervalEvidence) : String :=
  sha256Wire sha256 (intervals.flatMap (·.material))

/-! ## The canonical adapter -/

/-- `ChronicleScreenIntervalInput` -/
structure ChronicleScreenIntervalInput where
  participantId : String
  startNs : Int
  stopNs : Option Int
  startBoundarySourceRow : Nat
  stopBoundarySourceRow : Option Nat
  startSourceRows : List Nat
  stopSourceRows : List Nat
  closeReason : ScreenIntervalCloseReason
deriving DecidableEq, Repr

/-- The interval of the native rule with the boundaries of the input. -/
def ChronicleScreenIntervalInput.interval (input : ChronicleScreenIntervalInput) :
    ScreenIntervalEvidence :=
  makeScreenIntervalFromParts sha256 input.participantId .chronicleScreenInteractiveV1 .session
    input.startNs input.stopNs input.startBoundarySourceRow input.stopBoundarySourceRow
    input.startSourceRows input.stopSourceRows input.closeReason

/-- The output of an applicable strategy. -/
def chronicleOutput (applicability : B05ApplicabilityReceiptV1) (rawEventCount : Nat)
    (intervals : List ScreenIntervalEvidence) (issues : List ScreenConstructionIssue) :
    ScreenConstructionOutput where
  intervals
  applicability
  constructionReceipt := some
    { strategyId := .chronicleScreenInteractiveV1
      relation := applicability.relation
      sourceIdentity := "chronicle_feature_baseline_080801a"
      sourceArtifactSha256 := none
      sourceLicenseStatus := "GPL-3.0-only_project_native"
      inputRowCount := rawEventCount
      participantCount := applicability.namedParticipants
      intervalCount := intervals.length
      sessionCount := intervals.length
      glanceCount := 0
      rightCensoredCount := intervals.countP (·.rightCensored)
      issueCounts := issueCounts issues
      intervalDigest := screenIntervalDigest sha256 intervals }
  issues

/-- `adapt_chronicle_screen_intervals_with_issues` -/
def adaptChronicleScreenIntervalsWithIssues (input : B05ApplicabilityInput)
    (canonicalIntervals : List ChronicleScreenIntervalInput)
    (canonicalIssues : List ScreenConstructionIssue) :
    Except CapabilityEvidenceError ScreenConstructionOutput := do
  let applicability ← resolveB05Applicability sha256 .chronicleScreenInteractiveV1 input
  if !applicability.executable then
    return { intervals := [], applicability, constructionReceipt := none, issues := [] }
  else
    return chronicleOutput sha256 applicability input.rawEvents.length
      (sortByKey ScreenIntervalEvidence.key (canonicalIntervals.map (·.interval sha256)))
      (sortByKey ScreenConstructionIssue.key canonicalIssues)

/-- `adapt_chronicle_screen_intervals` -/
def adaptChronicleScreenIntervals (input : B05ApplicabilityInput)
    (canonicalIntervals : List ChronicleScreenIntervalInput) :
    Except CapabilityEvidenceError ScreenConstructionOutput :=
  adaptChronicleScreenIntervalsWithIssues sha256 input canonicalIntervals []

/-! ## The validator -/

/-- The error texts of the validator. -/
def screenValidationError (check : String) : String := "b05_screen_validation_error:" ++ check

/-- `is_sha256_wire` -/
def isSha256Wire (value : String) : Bool :=
  value.startsWith "sha256:" &&
    let hex := value.toList.drop 7
    hex.length = 64 && hex.all fun char =>
      (48 ≤ char.toNat && char.toNat ≤ 57) || (97 ≤ char.toNat && char.toNat ≤ 102)

/-- `capability_evidence_assignment_digest` -/
def capabilityEvidenceAssignmentDigest (evidenceArtifactDigest : String) : String :=
  sha256Wire sha256 (utf8 ("assignment\x1finput_capability_evidence_file\x1f" ++
    evidenceArtifactDigest))

/-- The evidence that a receipt of the strategy is bound to. -/
def validateEvidenceBinding (applicability : B05ApplicabilityReceiptV1) (strategy : Strategy) :
    Except String Unit :=
  if strategy = .chronicleScreenInteractiveV1 then
    require (applicability.evidenceArtifactDigest = none ∧
      applicability.evidenceAssignmentDigest = none)
      (screenValidationError "unexpected_chronicle_capability_evidence")
  else
    match applicability.evidenceArtifactDigest with
    | none => .error (screenValidationError "source_capability_evidence_missing")
    | some artifactDigest =>
        require (isSha256Wire artifactDigest ∧ applicability.evidenceAssignmentDigest =
          some (capabilityEvidenceAssignmentDigest sha256 artifactDigest))
          (screenValidationError "source_capability_identity_mismatch")

/-- The fields of a claim that a decision must carry, or must not. -/
def CapabilityDecision.claimShaped (decision : CapabilityDecision) : Bool :=
  match decision.assertedState with
  | some state =>
      decision.evidenceScope ≠ .none &&
        decision.claimPhysicalDataRow.any (2 ≤ ·) &&
        match state with
        | .capable | .absent =>
            decision.evidenceBasis.any (· ≠ .unspecified) &&
              decision.evidenceReference.any (!·.isEmpty) &&
              decision.evidenceSha256.all isSha256Wire
        | .unknown =>
            decision.evidenceBasis = some .unspecified && decision.evidenceReference = some "" &&
              decision.evidenceSha256.isNone
  | none =>
      decision.evidenceScope = .none && decision.evidenceBasis.isNone &&
        decision.evidenceReference.isNone && decision.evidenceSha256.isNone &&
        decision.claimPhysicalDataRow.isNone

/-- What the validator expects of a capability. -/
def CapabilityDecision.expected (decision : CapabilityDecision) :
    CapabilityState × CapabilityEvidenceOrigin × ObservationDisposition :=
  if 0 < decision.observedStandaloneRowCount then (.capable, .observedInBoundInput, .observed)
  else
    effectiveDecision 0 decision.capabilityId.observedSignal.isSome decision.assertedState.isSome
      decision.assertedState

/-- The checks of one capability decision of a source strategy. -/
def validateCapabilityDecision (required : List CapabilityId) (decision : CapabilityDecision) :
    Except String Unit := do
  require (decision.claimShaped ∧
    decision.assertedState.isSome = decision.claimPhysicalDataRow.isSome)
    (screenValidationError "capability_claim_shape_mismatch")
  require (0 < decision.observedStandaloneRowCount → decision.capabilityId.observedSignal.isSome)
    (screenValidationError "nonobservable_capability_observed")
  require (0 < decision.observedStandaloneRowCount → decision.assertedState ≠ some .absent)
    (screenValidationError "observed_absent_capability")
  require ((decision.effectiveState, decision.evidenceOrigin, decision.observationDisposition) =
    decision.expected)
    (screenValidationError "capability_decision_incoherent")
  require (decision.capabilityId ∈ required → decision.effectiveState = .capable)
    (screenValidationError "required_capability_not_capable")

/-- The checks of one participant of a receipt. -/
def validateParticipant (strategy : Strategy) (required : List CapabilityId)
    (participant : B05ParticipantDecision) : Except String Unit := do
  let native : Bool := strategy = .chronicleScreenInteractiveV1
  let ids := participant.capabilityDecisions.map (·.capabilityId)
  require (ids = (if native then [] else CapabilityId.all) ∧ CapabilityId.Ascending ids)
    (screenValidationError "capability_decision_order_mismatch")
  require (participant.issues = []) (screenValidationError "executable_participant_issue")
  if native then
    require (participant.evidenceScope = .none ∧ participant.decisiveEqualTimestampGroupCount = 0)
      (screenValidationError "unexpected_chronicle_participant_evidence")
  else do
    require (participant.participantId ≠ "" ∧ participant.evidenceScope ≠ .none)
      (screenValidationError "source_participant_scope_missing")
    participant.capabilityDecisions.forM (validateCapabilityDecision required)

/-- The relations that a receipt of the strategy may state. -/
def Strategy.admits (strategy : Strategy) (relation : ScientificRelation) : Bool :=
  match strategy with
  | .chronicleScreenInteractiveV1 =>
      relation = .baselineNative || relation = .baselineEquivalent
  | _ => relation = .sourceAlignedAdapter

/-- The capabilities that a receipt with these decisions requires. -/
def expectedRequiredCapabilityIds (strategy : Strategy)
    (decisions : List B05ParticipantDecision) : List CapabilityId :=
  CapabilityId.inOrder (strategy.requiredCapabilityIds ++
    if decisions.any (0 < ·.decisiveEqualTimestampGroupCount) then
      [.equalTimestampSourceOrderPreserved]
    else [])

/-- The checks of the applicability receipt. -/
def validateApplicability (applicability : B05ApplicabilityReceiptV1)
    (expectedInputDigest : String) (strategy : Strategy) : Except String Unit := do
  require (applicability.inputDigest = expectedInputDigest)
    (screenValidationError "input_digest_mismatch")
  require (applicability.requestedStrategyId = strategy ∧
    applicability.effectiveStrategyId = strategy)
    (screenValidationError "strategy_mismatch")
  require (applicability.executable = true ∧ applicability.refusalReason = none ∧
    applicability.refusalDetail = none)
    (screenValidationError "non_executable_persisted_output")
  require (applicability.protocolVersion = b05FoundationalSemanticsProtocolVersion ∧
    applicability.sourceCheckpoint = b05SourceCheckpoint ∧
    applicability.sourceOrderIndexSpace = b05SourceOrderIndexSpace ∧
    applicability.sourceAdapterId = b05SourceAdapterId)
    (screenValidationError "applicability_source_identity_mismatch")
  require (applicability.requiredSignalIds = strategy.requiredSignalIds ∧
    applicability.requiredCapabilityIds =
      expectedRequiredCapabilityIds strategy applicability.participantDecisions)
    (screenValidationError "required_capability_identity_mismatch")
  require (strategy.admits applicability.relation)
    (screenValidationError "applicability_relation_mismatch")
  validateEvidenceBinding sha256 applicability strategy
  require (applicability.capabilityResolutionDigest =
    applicabilityResolutionDigest sha256 applicability)
    (screenValidationError "applicability_digest_mismatch")
  require (applicability.participantDecisions.IsChain fun a b => a.participantId < b.participantId)
    (screenValidationError "participant_decision_order_mismatch")
  applicability.participantDecisions.forM
    (validateParticipant strategy applicability.requiredCapabilityIds)
  require (CapabilityId.Ascending applicability.requiredSignalIds ∧
    CapabilityId.Ascending applicability.requiredCapabilityIds)
    (screenValidationError "required_capability_order_mismatch")

/-- The boundaries of the interval are rows of the input and agree with each other. -/
def ScreenIntervalEvidence.boundaryShaped (interval : ScreenIntervalEvidence) (rowCount : Nat) :
    Bool :=
  let inInput := fun row : Nat => 0 < row && row ≤ rowCount
  !interval.startSourceRows.isEmpty && inInput interval.startBoundarySourceRow &&
    (interval.startSourceRows ++ interval.stopSourceRows).all inInput &&
    interval.stopBoundarySourceRow.all inInput &&
    interval.startSourceRows.contains interval.startBoundarySourceRow &&
    interval.stopNs.isSome == interval.stopBoundarySourceRow.isSome &&
    interval.stopNs.isNone == interval.stopSourceRows.isEmpty &&
    interval.stopBoundarySourceRow.all interval.stopSourceRows.contains &&
    interval.stopNs.all (interval.startNs ≤ ·) &&
    interval.stopNs.isNone == (interval.closeReason == .rightCensoredObservationWindow)

/-- The interval made again from its own parts. -/
def ScreenIntervalEvidence.rebuilt (interval : ScreenIntervalEvidence) : ScreenIntervalEvidence :=
  makeScreenIntervalFromParts sha256 interval.participantId interval.strategyId interval.kind
    interval.startNs interval.stopNs interval.startBoundarySourceRow
    interval.stopBoundarySourceRow interval.startSourceRows interval.stopSourceRows
    interval.closeReason

/-- The loop over the intervals; `seen` are the ids of the earlier ones. -/
def validateIntervals (strategy : Strategy) (rowCount : Nat) :
    List ScreenIntervalEvidence → List String → Except String Unit
  | [], _ => .ok ()
  | interval :: rest, seen => do
      require (interval.screenIntervalId ∉ seen) (screenValidationError "duplicate_interval_id")
      require (interval.strategyId = strategy) (screenValidationError "interval_strategy_mismatch")
      require (interval.boundaryShaped rowCount)
        (screenValidationError "interval_boundary_shape_mismatch")
      require (interval.rebuilt sha256 = interval)
        (screenValidationError "interval_identity_mismatch")
      validateIntervals strategy rowCount rest (interval.screenIntervalId :: seen)

/-- The checks of the construction receipt. -/
def validateConstructionReceipt (output : ScreenConstructionOutput) (strategy : Strategy)
    (rowCount : Nat) (receipt : ScreenConstructionReceiptV1) : Except String Unit := do
  let sessionCount := output.intervals.countP (·.kind = .session)
  require (receipt.protocolVersion = b05FoundationalSemanticsProtocolVersion ∧
    receipt.strategyId = strategy ∧ receipt.relation = output.applicability.relation)
    (screenValidationError "receipt_identity_mismatch")
  require ((receipt.sourceIdentity, receipt.sourceArtifactSha256, receipt.sourceLicenseStatus) =
    strategy.sourceMetadata ∧ receipt.inputRowCount = rowCount)
    (screenValidationError "receipt_source_metadata_mismatch")
  require (receipt.participantCount = output.applicability.namedParticipants ∧
    receipt.intervalCount = output.intervals.length ∧ receipt.sessionCount = sessionCount ∧
    receipt.glanceCount = output.intervals.length - sessionCount ∧
    receipt.rightCensoredCount = output.intervals.countP (·.rightCensored) ∧
    receipt.intervalDigest = screenIntervalDigest sha256 output.intervals)
    (screenValidationError "receipt_counts_or_digest_mismatch")
  require (sortByKey ScreenConstructionIssue.key output.issues = output.issues ∧
    output.issues.IsChain fun a b => a.key < b.key)
    (screenValidationError "issue_order_mismatch")
  require (receipt.issueCounts = issueCounts output.issues)
    (screenValidationError "issue_counts_mismatch")

/-- `validate_screen_construction_output` -/
def validateScreenConstructionOutput (output : ScreenConstructionOutput)
    (expectedInputDigest : String) (expectedStrategy : Strategy) (expectedInputRowCount : Nat) :
    Except String Unit := do
  validateApplicability sha256 output.applicability expectedInputDigest expectedStrategy
  require (output.intervals.IsChain fun a b => a.key < b.key)
    (screenValidationError "interval_order_mismatch")
  validateIntervals sha256 expectedStrategy expectedInputRowCount output.intervals []
  require (invalidScreenDependency output.intervals = none)
    (screenValidationError "invalid_interval_dependency")
  match output.constructionReceipt with
  | none => .error (screenValidationError "construction_receipt_missing")
  | some receipt =>
      validateConstructionReceipt sha256 output expectedStrategy expectedInputRowCount receipt

end Output

end Chronicle.Screens
