import Mathlib.Data.String.Basic
import Chronicle.Screens.Decisive

/-!
# Applicability of a screen strategy

What a strategy requires of the input, what the capability evidence and the events say of it, and
the receipt that either admits the strategy or names the first reason to refuse.
-/

namespace Chronicle.Screens

open Chronicle.Library.Bytes Chronicle.Library.StableSort

/-! ## Capabilities -/

/-- `CapabilityId` -/
inductive CapabilityId where
  | androidUsageEvent15ScreenInteractive
  | androidUsageEvent16ScreenNonInteractive
  | androidUsageEvent17KeyguardShown
  | androidUsageEvent18KeyguardHidden
  | androidUsageEvent26DeviceShutdown
  | androidUsageEvent27DeviceStartup
  | separateScreenKeyguardEventRows
  | fullUnfilteredSourceEventStream
  | sourceRecordOrderPreserved
  | equalTimestampSourceOrderPreserved
  | singleDeviceStreamPerParticipant
  | completeObservationWindowChunk
  | androidDefaultAppsCaptured
  | androidUsageStatsPermissionGranted
  | selected30DayScreenTimeDataComplete
deriving DecidableEq, Repr

namespace CapabilityId

/-- `CapabilityId::ALL`: the capabilities that a screen strategy can ask for. -/
def all : List CapabilityId :=
  [androidUsageEvent15ScreenInteractive, androidUsageEvent16ScreenNonInteractive,
    androidUsageEvent17KeyguardShown, androidUsageEvent18KeyguardHidden,
    androidUsageEvent26DeviceShutdown, androidUsageEvent27DeviceStartup,
    separateScreenKeyguardEventRows, fullUnfilteredSourceEventStream,
    sourceRecordOrderPreserved, equalTimestampSourceOrderPreserved,
    singleDeviceStreamPerParticipant, completeObservationWindowChunk]

/-- `CapabilityId::canonical_id` -/
def canonicalId : CapabilityId → String
  | androidUsageEvent15ScreenInteractive => "android_usage_event_15_screen_interactive"
  | androidUsageEvent16ScreenNonInteractive => "android_usage_event_16_screen_non_interactive"
  | androidUsageEvent17KeyguardShown => "android_usage_event_17_keyguard_shown"
  | androidUsageEvent18KeyguardHidden => "android_usage_event_18_keyguard_hidden"
  | androidUsageEvent26DeviceShutdown => "android_usage_event_26_device_shutdown"
  | androidUsageEvent27DeviceStartup => "android_usage_event_27_device_startup"
  | separateScreenKeyguardEventRows => "separate_screen_keyguard_event_rows"
  | fullUnfilteredSourceEventStream => "full_unfiltered_source_event_stream"
  | sourceRecordOrderPreserved => "source_record_order_preserved"
  | equalTimestampSourceOrderPreserved => "equal_timestamp_source_order_preserved"
  | singleDeviceStreamPerParticipant => "single_device_stream_per_participant"
  | completeObservationWindowChunk => "complete_observation_window_chunk"
  | androidDefaultAppsCaptured => "android_default_apps_captured"
  | androidUsageStatsPermissionGranted => "android_usage_stats_permission_granted"
  | selected30DayScreenTimeDataComplete => "selected_30_day_screen_time_data_complete"

/-- `CapabilityId::observed_signal` -/
def observedSignal : CapabilityId → Option AndroidUsageSignal
  | androidUsageEvent15ScreenInteractive => some .screenInteractive
  | androidUsageEvent16ScreenNonInteractive => some .screenNonInteractive
  | androidUsageEvent17KeyguardShown => some .keyguardShown
  | androidUsageEvent18KeyguardHidden => some .keyguardHidden
  | androidUsageEvent26DeviceShutdown => some .deviceShutdown
  | androidUsageEvent27DeviceStartup => some .deviceStartup
  | _ => none

/-- The place in the declaration, by which capabilities are ordered. -/
def place (id : CapabilityId) : Nat := id.ctorIdx

/-- The capabilities in their order, each once. -/
def inOrder (ids : List CapabilityId) : List CapabilityId := (sortByKey place ids).dedup

/-- Each capability stands before the next one. -/
def Ascending (ids : List CapabilityId) : Prop := ids.IsChain fun a b => a.place < b.place

instance (ids : List CapabilityId) : Decidable (Ascending ids) :=
  inferInstanceAs (Decidable (List.IsChain _ _))

end CapabilityId

/-- `AndroidUsageSignal::is_fused` -/
def AndroidUsageSignal.isFused : AndroidUsageSignal → Bool
  | combinedScreenInteractiveKeyguardShown | combinedScreenNonInteractiveKeyguardHidden => true
  | _ => false

/-- `AndroidUsageSignal::capability` -/
def AndroidUsageSignal.capability : AndroidUsageSignal → Option CapabilityId
  | screenInteractive => some .androidUsageEvent15ScreenInteractive
  | screenNonInteractive => some .androidUsageEvent16ScreenNonInteractive
  | keyguardShown => some .androidUsageEvent17KeyguardShown
  | keyguardHidden => some .androidUsageEvent18KeyguardHidden
  | deviceShutdown => some .androidUsageEvent26DeviceShutdown
  | deviceStartup => some .androidUsageEvent27DeviceStartup
  | _ => none

namespace Strategy

open CapabilityId

/-- `ScreenSessionConstructionStrategyId::required_signal_ids` -/
def requiredSignalIds : Strategy → List CapabilityId
  | chronicleScreenInteractiveV1 => []
  | parryToth2025SessionGlanceV1 =>
      [androidUsageEvent15ScreenInteractive, androidUsageEvent16ScreenNonInteractive,
        androidUsageEvent17KeyguardShown, androidUsageEvent18KeyguardHidden,
        androidUsageEvent26DeviceShutdown, androidUsageEvent27DeviceStartup]
  | zhu2018UnlockLockV1 =>
      [androidUsageEvent15ScreenInteractive, androidUsageEvent16ScreenNonInteractive,
        androidUsageEvent18KeyguardHidden, androidUsageEvent26DeviceShutdown]
  | unlockToLockV1 => [androidUsageEvent17KeyguardShown, androidUsageEvent18KeyguardHidden]
  | unlockToOffOrLockV1 =>
      [androidUsageEvent16ScreenNonInteractive, androidUsageEvent17KeyguardShown,
        androidUsageEvent18KeyguardHidden]

/-- What every strategy but the native one requires besides its signals. -/
def structuralCapabilityIds : List CapabilityId :=
  [separateScreenKeyguardEventRows, fullUnfilteredSourceEventStream, sourceRecordOrderPreserved,
    singleDeviceStreamPerParticipant, completeObservationWindowChunk]

/-- `ScreenSessionConstructionStrategyId::required_capability_ids` -/
def requiredCapabilityIds : Strategy → List CapabilityId
  | chronicleScreenInteractiveV1 => []
  | strategy => strategy.requiredSignalIds ++ structuralCapabilityIds

end Strategy

/-- `CapabilityState` -/
inductive CapabilityState where
  | capable
  | absent
  | unknown
deriving DecidableEq, Repr

/-- `CapabilityState::canonical_id` -/
def CapabilityState.canonicalId : CapabilityState → String
  | capable => "capable"
  | absent => "absent"
  | unknown => "unknown"

/-- `EvidenceBasis` -/
inductive EvidenceBasis where
  | producerManifest
  | exporterReceipt
  | transformationReceipt
  | studyProtocol
  | operatorAttestation
  | unspecified
deriving DecidableEq, Repr

/-- `EvidenceBasis::canonical_id` -/
def EvidenceBasis.canonicalId : EvidenceBasis → String
  | producerManifest => "producer_manifest"
  | exporterReceipt => "exporter_receipt"
  | transformationReceipt => "transformation_receipt"
  | studyProtocol => "study_protocol"
  | operatorAttestation => "operator_attestation"
  | unspecified => "unspecified"

/-- `EvidenceScope` -/
inductive EvidenceScope where
  | exact
  | wildcard
  | none
deriving DecidableEq, Repr

/-- `EvidenceScope::canonical_id` -/
def EvidenceScope.canonicalId : EvidenceScope → String
  | exact => "exact"
  | wildcard => "wildcard"
  | none => "none"

/-- `CapabilityEvidenceOrigin` -/
inductive CapabilityEvidenceOrigin where
  | observedInBoundInput
  | manifestAssertion
  | none
deriving DecidableEq, Repr

/-- `CapabilityEvidenceOrigin::canonical_id` -/
def CapabilityEvidenceOrigin.canonicalId : CapabilityEvidenceOrigin → String
  | observedInBoundInput => "observed_in_bound_input"
  | manifestAssertion => "manifest_assertion"
  | none => "none"

/-- `ObservationDisposition` -/
inductive ObservationDisposition where
  | observed
  | capableNoRow
  | absent
  | unknown
  | notObservable
deriving DecidableEq, Repr

/-- `ObservationDisposition::canonical_id` -/
def ObservationDisposition.canonicalId : ObservationDisposition → String
  | observed => "observed"
  | capableNoRow => "capable_no_row"
  | absent => "absent"
  | unknown => "unknown"
  | notObservable => "not_observable"

/-! ## Decisions and receipts -/

/-- `ScientificRelation` -/
inductive ScientificRelation where
  | baselineNative
  | baselineEquivalent
  | sourceNative
  | sourceEquivalent
  | sourceAlignedAdapter
  | controlledDerivative
  | partialReplay
  | refused
deriving DecidableEq, Repr

/-- `ScientificRelation::canonical_id` -/
def ScientificRelation.canonicalId : ScientificRelation → String
  | baselineNative => "baseline_native"
  | baselineEquivalent => "baseline_equivalent"
  | sourceNative => "source_native"
  | sourceEquivalent => "source_equivalent"
  | sourceAlignedAdapter => "source_aligned_adapter"
  | controlledDerivative => "controlled_derivative"
  | partialReplay => "partial_replay"
  | refused => "refused"

/-- `B05RefusalReason`, in the order of `B05RefusalReason::PRIORITY`. -/
inductive B05RefusalReason where
  | inputCapabilityEvidenceAbsent
  | capabilityEvidenceNotBoundToInput
  | participantScopeUndetermined
  | multipleDeviceStreamsAliased
  | deviceStreamScopeUnknown
  | combinedEventRepresentation
  | sourceStreamIncomplete
  | sourceStreamCompletenessUnknown
  | sourceOrderNotPreserved
  | sourceOrderUnknown
  | unsupportedInputChunk
  | inputChunkStatusUnknown
  | missingRequiredSignal
  | requiredSignalCapabilityUnknown
  | unorderableFullStreamRow
  | nonMonotonicSourceTimestamps
  | ambiguousEqualTimestamp
deriving DecidableEq, Repr

/-- `B05RefusalReason::canonical_id` -/
def B05RefusalReason.canonicalId : B05RefusalReason → String
  | inputCapabilityEvidenceAbsent => "input_capability_evidence_absent"
  | capabilityEvidenceNotBoundToInput => "capability_evidence_not_bound_to_input"
  | participantScopeUndetermined => "participant_scope_undetermined"
  | multipleDeviceStreamsAliased => "multiple_device_streams_aliased"
  | deviceStreamScopeUnknown => "device_stream_scope_unknown"
  | combinedEventRepresentation => "combined_event_representation"
  | sourceStreamIncomplete => "source_stream_incomplete"
  | sourceStreamCompletenessUnknown => "source_stream_completeness_unknown"
  | sourceOrderNotPreserved => "source_order_not_preserved"
  | sourceOrderUnknown => "source_order_unknown"
  | unsupportedInputChunk => "unsupported_input_chunk"
  | inputChunkStatusUnknown => "input_chunk_status_unknown"
  | missingRequiredSignal => "missing_required_signal"
  | requiredSignalCapabilityUnknown => "required_signal_capability_unknown"
  | unorderableFullStreamRow => "unorderable_full_stream_row"
  | nonMonotonicSourceTimestamps => "non_monotonic_source_timestamps"
  | ambiguousEqualTimestamp => "ambiguous_equal_timestamp"

/-- The place in `B05RefusalReason::PRIORITY`. -/
def B05RefusalReason.priority (reason : B05RefusalReason) : Nat := reason.ctorIdx

/-- `CapabilityDecision` -/
structure CapabilityDecision where
  capabilityId : CapabilityId
  assertedState : Option CapabilityState
  effectiveState : CapabilityState
  evidenceScope : EvidenceScope
  evidenceOrigin : CapabilityEvidenceOrigin
  evidenceBasis : Option EvidenceBasis
  evidenceReference : Option String
  evidenceSha256 : Option String
  observedStandaloneRowCount : Nat
  observationDisposition : ObservationDisposition
  claimPhysicalDataRow : Option Nat
deriving DecidableEq, Repr

/-- `B05ParticipantIssue` -/
structure B05ParticipantIssue where
  reason : B05RefusalReason
  detail : String
  sourceDataRow : Option Nat
deriving DecidableEq, Repr

/-- `B05ParticipantDecision` -/
structure B05ParticipantDecision where
  participantId : String
  evidenceScope : EvidenceScope
  capabilityDecisions : List CapabilityDecision
  decisiveEqualTimestampGroupCount : Nat
  issues : List B05ParticipantIssue
deriving DecidableEq, Repr

/-- `B05_SOURCE_CHECKPOINT` -/
def b05SourceCheckpoint : String := "post_decode_pre_filter_pre_dedupe_pre_timestamp_correction"

/-- `B05_SOURCE_ORDER_INDEX_SPACE` -/
def b05SourceOrderIndexSpace : String := "raw_csv_data_row"

/-- `B05_SOURCE_ADAPTER_ID` -/
def b05SourceAdapterId : String := "chronicle_android_usage_event_labels_v1"

/-- `B05ApplicabilityReceiptV1` -/
structure B05ApplicabilityReceiptV1 where
  protocolVersion : String := b05FoundationalSemanticsProtocolVersion
  inputDigest : String
  evidenceArtifactDigest : Option String
  evidenceAssignmentDigest : Option String
  requestedStrategyId : Strategy
  effectiveStrategyId : Strategy
  relation : ScientificRelation
  executable : Bool
  refusalReason : Option B05RefusalReason
  refusalDetail : Option String
  sourceCheckpoint : String := b05SourceCheckpoint
  sourceOrderIndexSpace : String := b05SourceOrderIndexSpace
  sourceAdapterId : String := b05SourceAdapterId
  requiredSignalIds : List CapabilityId
  requiredCapabilityIds : List CapabilityId
  participantDecisions : List B05ParticipantDecision
  capabilityResolutionDigest : String := ""
  optionsDigest : String
deriving DecidableEq, Repr

/-! ## The digest of a receipt -/

/-- What the digest of a receipt reads of a capability decision. -/
def CapabilityDecision.material (decision : CapabilityDecision) : List UInt8 :=
  digestField decision.capabilityId.canonicalId ++
    digestField ((decision.assertedState.map (·.canonicalId)).getD "none") ++
    digestField decision.effectiveState.canonicalId ++
    digestField decision.evidenceScope.canonicalId ++
    digestField decision.evidenceOrigin.canonicalId ++
    digestField ((decision.evidenceBasis.map (·.canonicalId)).getD "none") ++
    digestField (decision.evidenceReference.getD "") ++
    digestField (decision.evidenceSha256.getD "") ++
    digestField (toString decision.observedStandaloneRowCount) ++
    digestField decision.observationDisposition.canonicalId ++
    digestField ((decision.claimPhysicalDataRow.map toString).getD "")

/-- What the digest of a receipt reads of an issue. -/
def B05ParticipantIssue.material (issue : B05ParticipantIssue) : List UInt8 :=
  digestField issue.reason.canonicalId ++ digestField issue.detail ++
    digestField ((issue.sourceDataRow.map toString).getD "")

/-- What the digest of a receipt reads of a participant. -/
def B05ParticipantDecision.material (participant : B05ParticipantDecision) : List UInt8 :=
  digestField participant.participantId ++ digestField participant.evidenceScope.canonicalId ++
    digestField (toString participant.decisiveEqualTimestampGroupCount) ++
    participant.capabilityDecisions.flatMap CapabilityDecision.material ++
    participant.issues.flatMap B05ParticipantIssue.material

section Digest

variable (sha256 : List UInt8 → List UInt8)

/-- `applicability_resolution_digest` -/
def applicabilityResolutionDigest (receipt : B05ApplicabilityReceiptV1) : String :=
  sha256Wire sha256 <|
    digestField receipt.protocolVersion ++ digestField receipt.inputDigest ++
    digestField (receipt.evidenceArtifactDigest.getD "") ++
    digestField (receipt.evidenceAssignmentDigest.getD "") ++
    digestField receipt.requestedStrategyId.canonicalId ++
    digestField receipt.effectiveStrategyId.canonicalId ++
    digestField receipt.relation.canonicalId ++
    digestField (if receipt.executable then "1" else "0") ++
    digestField ((receipt.refusalReason.map (·.canonicalId)).getD "") ++
    digestField (receipt.refusalDetail.getD "") ++
    digestField receipt.sourceCheckpoint ++ digestField receipt.sourceOrderIndexSpace ++
    digestField receipt.sourceAdapterId ++
    receipt.requiredSignalIds.flatMap (fun id => digestField id.canonicalId) ++
    digestField "|" ++
    receipt.requiredCapabilityIds.flatMap (fun id => digestField id.canonicalId) ++
    receipt.participantDecisions.flatMap B05ParticipantDecision.material ++
    digestField receipt.optionsDigest

/-- The receipt with its own digest. -/
def B05ApplicabilityReceiptV1.sealed (receipt : B05ApplicabilityReceiptV1) :
    B05ApplicabilityReceiptV1 :=
  { receipt with capabilityResolutionDigest := applicabilityResolutionDigest sha256 receipt }

end Digest

/-! ## Resolution -/

/-- `CapabilityClaim` -/
structure CapabilityClaim where
  physicalDataRow : Nat
  rawInputSha256 : String
  participantId : String
  capabilityId : CapabilityId
  state : CapabilityState
  evidenceBasis : EvidenceBasis
  evidenceReference : String
  evidenceSha256 : Option String
deriving DecidableEq, Repr

/-- `ParsedCapabilityEvidence` -/
structure ParsedCapabilityEvidence where
  claims : List CapabilityClaim
  evidenceArtifactDigest : String
deriving DecidableEq, Repr

/-- `CapabilityEvidenceError`; the detail is its canonical id. -/
structure CapabilityEvidenceError where
  errorClass : String := "invalid_input_capability_evidence"
  detail : String
  physicalDataRow : Option Nat
deriving DecidableEq, Repr

/-- The text of `CapabilityEvidenceError::fmt`. -/
def CapabilityEvidenceError.text (error : CapabilityEvidenceError) : String :=
  error.errorClass ++ ":" ++ error.detail ++
    (error.physicalDataRow.map fun row => ":row=" ++ toString row).getD ""

/-- `B05ApplicabilityInput`; the fragmented participants are in ascending order. -/
structure B05ApplicabilityInput where
  rawInputSha256 : String
  rawEvents : List RawB05Event
  evidence : Option ParsedCapabilityEvidence
  evidenceAssignmentDigest : Option String
  optionsDigest : String
  selectionWasExplicit : Bool
  fragmentedParticipants : List String

namespace B05ApplicabilityInput

/-- The participants that a receipt decides on, in ascending order. -/
def participantIds (input : B05ApplicabilityInput) : List String :=
  let known := input.rawEvents.map (·.participantId) ++ input.fragmentedParticipants
  if known.isEmpty then [""] else sortByKey id known.dedup

/-- The events of one participant, in their order. -/
def eventsOf (input : B05ApplicabilityInput) (participantId : String) : List RawB05Event :=
  input.rawEvents.filter (·.participantId = participantId)

/-- The source rows that are no row number or do not follow the row before them. -/
def invalidSourceOrderRows (input : B05ApplicabilityInput) : List Nat :=
  let rows := input.rawEvents.map (·.sourceDataRow)
  ((rows.zip (none :: rows.map some)).filter fun (row, previous) =>
    row = 0 ∨ previous.any fun previous => row ≤ previous).map Prod.fst

/-- The receipt of a participant stream that is known to be split. -/
def fragmentedReceipt (input : B05ApplicabilityInput) (strategy : Strategy) :
    B05ApplicabilityReceiptV1 where
  inputDigest := input.rawInputSha256
  evidenceArtifactDigest := input.evidence.map (·.evidenceArtifactDigest)
  evidenceAssignmentDigest := input.evidenceAssignmentDigest
  requestedStrategyId := strategy
  effectiveStrategyId := strategy
  relation := .refused
  executable := false
  refusalReason := some .unsupportedInputChunk
  refusalDetail := some ("participant=" ++ input.fragmentedParticipants.headD "" ++
    ";participant_stream_fragmented")
  requiredSignalIds := strategy.requiredSignalIds
  requiredCapabilityIds := strategy.requiredCapabilityIds
  participantDecisions := input.participantIds.map fun participantId =>
    { participantId
      evidenceScope := .none
      capabilityDecisions := []
      decisiveEqualTimestampGroupCount := 0
      issues :=
        if participantId ∈ input.fragmentedParticipants then
          [⟨.unsupportedInputChunk, "participant_stream_fragmented", none⟩]
        else [] }
  optionsDigest := input.optionsDigest

/-- The receipt of the native rule. -/
def chronicleReceipt (input : B05ApplicabilityInput) : B05ApplicabilityReceiptV1 where
  inputDigest := input.rawInputSha256
  evidenceArtifactDigest := none
  evidenceAssignmentDigest := none
  requestedStrategyId := .chronicleScreenInteractiveV1
  effectiveStrategyId := .chronicleScreenInteractiveV1
  relation := if input.selectionWasExplicit then .baselineEquivalent else .baselineNative
  executable := true
  refusalReason := none
  refusalDetail := none
  requiredSignalIds := []
  requiredCapabilityIds := []
  participantDecisions := input.participantIds.map fun participantId =>
    { participantId
      evidenceScope := .none
      capabilityDecisions := []
      decisiveEqualTimestampGroupCount := 0
      issues := [] }
  optionsDigest := input.optionsDigest

/-- `refused_without_participants` -/
def refusedWithoutParticipants (input : B05ApplicabilityInput) (strategy : Strategy)
    (refusalReason : B05RefusalReason) (refusalDetail : String) : B05ApplicabilityReceiptV1 where
  inputDigest := input.rawInputSha256
  evidenceArtifactDigest := input.evidence.map (·.evidenceArtifactDigest)
  evidenceAssignmentDigest := input.evidenceAssignmentDigest
  requestedStrategyId := strategy
  effectiveStrategyId := strategy
  relation := .refused
  executable := false
  refusalReason := some refusalReason
  refusalDetail := some refusalDetail
  requiredSignalIds := strategy.requiredSignalIds
  requiredCapabilityIds := strategy.requiredCapabilityIds
  participantDecisions := []
  optionsDigest := input.optionsDigest

end B05ApplicabilityInput

/-- The claim about a capability of the participant: its own one, or that of every participant. -/
def claimFor (claims : List CapabilityClaim) (participantId : String) (id : CapabilityId) :
    Option CapabilityClaim × EvidenceScope :=
  match claims.find? fun claim => claim.participantId = participantId ∧ claim.capabilityId = id with
  | some claim => (some claim, .exact)
  | none =>
      match claims.find? fun claim => claim.participantId = "*" ∧ claim.capabilityId = id with
      | some claim => (some claim, .wildcard)
      | none => (none, .none)

/-- What follows of a capability that was observed or asserted. -/
def effectiveDecision (observedCount : Nat) (observable claimed : Bool)
    (assertedState : Option CapabilityState) :
    CapabilityState × CapabilityEvidenceOrigin × ObservationDisposition :=
  if 0 < observedCount ∧ observable then (.capable, .observedInBoundInput, .observed)
  else
    match assertedState.getD .unknown with
    | .capable => (.capable, .manifestAssertion, .capableNoRow)
    | .absent => (.absent, .manifestAssertion, .absent)
    | .unknown =>
        (.unknown, if claimed then .manifestAssertion else .none,
          if observable then .unknown else .notObservable)

/-- The decision on one capability of a participant. -/
def capabilityDecision (claims : List CapabilityClaim) (participantId : String)
    (rows : List RawB05Event) (id : CapabilityId) :
    Except CapabilityEvidenceError CapabilityDecision :=
  let (claim, evidenceScope) := claimFor claims participantId id
  let observedCount := rows.countP fun row => row.signal.capability = some id
  if 0 < observedCount ∧ claim.any (·.state = .absent) then
    .error
      { detail := "observed_signal_contradiction", physicalDataRow := claim.map (·.physicalDataRow) }
  else
    let assertedState := claim.map (·.state)
    let effective := effectiveDecision observedCount id.observedSignal.isSome claim.isSome
      assertedState
    .ok
      { capabilityId := id
        assertedState
        effectiveState := effective.1
        evidenceScope
        evidenceOrigin := effective.2.1
        evidenceBasis := claim.map (·.evidenceBasis)
        evidenceReference := claim.map (·.evidenceReference)
        evidenceSha256 := claim.bind (·.evidenceSha256)
        observedStandaloneRowCount := observedCount
        observationDisposition := effective.2.2
        claimPhysicalDataRow := claim.map (·.physicalDataRow) }

/-- `simple_issue` -/
def simpleIssue (reason : B05RefusalReason) (id : CapabilityId) : B05ParticipantIssue :=
  ⟨reason, "capability=" ++ id.canonicalId, none⟩

/-- `decision`, of which only the state is read. -/
def effectiveStateOf (decisions : List CapabilityDecision) (id : CapabilityId) : CapabilityState :=
  ((decisions.find? (·.capabilityId = id)).map (·.effectiveState)).getD .unknown

/-- The issue of a capability that is absent, or of one that is unknown. -/
def stateIssue (state : CapabilityState) (absent unknown : B05ParticipantIssue) :
    List B05ParticipantIssue :=
  match state with
  | .absent => [absent]
  | .unknown => [unknown]
  | .capable => []

/-- `add_capability_issues` -/
def capabilityIssues (strategy : Strategy) (decisions : List CapabilityDecision)
    (decisiveCount : Nat) : List B05ParticipantIssue :=
  let lacking := fun id absent unknown =>
    stateIssue (effectiveStateOf decisions id) (simpleIssue absent id) (simpleIssue unknown id)
  lacking .singleDeviceStreamPerParticipant .multipleDeviceStreamsAliased
      .deviceStreamScopeUnknown ++
    lacking .separateScreenKeyguardEventRows .combinedEventRepresentation
      .requiredSignalCapabilityUnknown ++
    lacking .fullUnfilteredSourceEventStream .sourceStreamIncomplete
      .sourceStreamCompletenessUnknown ++
    lacking .sourceRecordOrderPreserved .sourceOrderNotPreserved .sourceOrderUnknown ++
    stateIssue (effectiveStateOf decisions .completeObservationWindowChunk)
      ⟨.unsupportedInputChunk, "participant_stream_fragmented", none⟩
      (simpleIssue .inputChunkStatusUnknown .completeObservationWindowChunk) ++
    (strategy.requiredSignalIds.flatMap fun id =>
      lacking id .missingRequiredSignal .requiredSignalCapabilityUnknown) ++
    if 0 < decisiveCount ∧
        effectiveStateOf decisions .equalTimestampSourceOrderPreserved ≠ .capable then
      [simpleIssue .ambiguousEqualTimestamp .equalTimestampSourceOrderPreserved]
    else []

/-- `first_non_monotonic_row` -/
def firstNonMonotonicRow (rows : List RawB05Event) : Option Nat :=
  (rows.zip rows.tail).findSome? fun (left, right) =>
    match left.timestampNs, right.timestampNs with
    | some leftNs, some rightNs => if rightNs < leftNs then some right.sourceDataRow else none
    | _, _ => none

/-- The issues that the rows of a participant raise by themselves. -/
def rowIssues (invalidRows : List Nat) (fragmented : List String) (participantId : String)
    (rows : List RawB05Event) : List B05ParticipantIssue :=
  (if participantId.isEmpty then
      [⟨.participantScopeUndetermined,
        "participant identity or physical source order is not unique",
        rows.head?.map (·.sourceDataRow)⟩]
    else []) ++
    ((rows.find? fun row => row.sourceDataRow ∈ invalidRows).map fun row =>
      ⟨.unorderableFullStreamRow, "physical source-row indices are not unique and increasing",
        some row.sourceDataRow⟩).toList ++
    (if participantId ∈ fragmented then
      [⟨.unsupportedInputChunk, "participant_stream_fragmented", none⟩]
    else []) ++
    ((rows.find? (·.signal.isFused)).map fun row =>
      ⟨.combinedEventRepresentation, "source arm requires separate screen and keyguard event rows",
        some row.sourceDataRow⟩).toList ++
    ((rows.find? (·.timestampNs.isNone)).map fun row =>
      ⟨.unorderableFullStreamRow, "a full-stream row has no physical timestamp",
        some row.sourceDataRow⟩).toList ++
    ((firstNonMonotonicRow rows).map fun row =>
      ⟨.nonMonotonicSourceTimestamps, "participant timestamps decrease in physical source order",
        some row⟩).toList

section Resolve

variable (sha256 : List UInt8 → List UInt8) (strategy : Strategy) (input : B05ApplicabilityInput)

/-- The decision on one participant of a source strategy. -/
def participantDecision (claims : List CapabilityClaim) (participantId : String) :
    Except CapabilityEvidenceError B05ParticipantDecision := do
  let rows := input.eventsOf participantId
  let issues := rowIssues input.invalidSourceOrderRows input.fragmentedParticipants participantId
    rows
  let decisiveCount :=
    if issues.isEmpty then decisiveEqualTimestampGroupCount sha256 strategy rows else 0
  let capabilityDecisions ← CapabilityId.all.mapM (capabilityDecision claims participantId rows)
  return {
    participantId
    evidenceScope :=
      if claims.any (·.participantId = participantId) then .exact
      else if claims.any (·.participantId = "*") then .wildcard
      else .none
    capabilityDecisions
    decisiveEqualTimestampGroupCount := decisiveCount
    issues := sortByKey (·.reason.priority)
      (issues ++ capabilityIssues strategy capabilityDecisions decisiveCount) }

/-- The first of the issues that has the most urgent reason, with its participant. -/
def mostUrgentIssue (decisions : List B05ParticipantDecision) :
    Option (String × B05ParticipantIssue) :=
  (sortByKey (fun entry : String × B05ParticipantIssue => entry.2.reason.priority)
    (decisions.flatMap fun participant =>
      participant.issues.map fun issue => (participant.participantId, issue))).head?

/-- The receipt of a source strategy whose evidence speaks of this input. -/
def sourceReceipt (evidence : ParsedCapabilityEvidence)
    (participantDecisions : List B05ParticipantDecision) : B05ApplicabilityReceiptV1 :=
  let refusal := mostUrgentIssue participantDecisions
  { inputDigest := input.rawInputSha256
    evidenceArtifactDigest := some evidence.evidenceArtifactDigest
    evidenceAssignmentDigest := input.evidenceAssignmentDigest
    requestedStrategyId := strategy
    effectiveStrategyId := strategy
    relation := if refusal.isNone then .sourceAlignedAdapter else .refused
    executable := refusal.isNone
    refusalReason := refusal.map (·.2.reason)
    refusalDetail := refusal.map fun entry => "participant=" ++ entry.1 ++ ";" ++ entry.2.detail
    requiredSignalIds := strategy.requiredSignalIds
    requiredCapabilityIds := CapabilityId.inOrder (strategy.requiredCapabilityIds ++
      if participantDecisions.any (0 < ·.decisiveEqualTimestampGroupCount) then
        [.equalTimestampSourceOrderPreserved]
      else [])
    participantDecisions
    optionsDigest := input.optionsDigest }

/-- `resolve_b05_applicability` -/
def resolveB05Applicability : Except CapabilityEvidenceError B05ApplicabilityReceiptV1 :=
  if input.fragmentedParticipants ≠ [] then .ok ((input.fragmentedReceipt strategy).sealed sha256)
  else if strategy = .chronicleScreenInteractiveV1 then .ok (input.chronicleReceipt.sealed sha256)
  else
    match input.evidence with
    | none =>
        .ok ((input.refusedWithoutParticipants strategy .inputCapabilityEvidenceAbsent
          "support role input_capability_evidence_file is absent").sealed sha256)
    | some evidence =>
        let claims := evidence.claims.filter (·.rawInputSha256 = input.rawInputSha256)
        if claims.isEmpty then
          .ok ((input.refusedWithoutParticipants strategy .capabilityEvidenceNotBoundToInput
            "sidecar contains zero rows for the exact raw input digest").sealed sha256)
        else do
          let participantDecisions ←
            input.participantIds.mapM (participantDecision sha256 strategy input claims)
          return (sourceReceipt strategy input evidence participantDecisions).sealed sha256

end Resolve

end Chronicle.Screens
