import Chronicle.Eyes.Triplets
import Chronicle.Eyes.UsageChunks

/-!
# Tagged final-app-usage evidence

`segment_eyes_complement` segments one participant's events, `tagged_fau_evidence` publishes the
segmentation with its receipt, and `validate_eyes_tagged_fau_evidence` derives every part of the
evidence again. An `i128` never overflows here and is the integer it stands for.
-/

namespace Chronicle.Eyes

open Chronicle.Library Chronicle.Library.Machine Chronicle.Library.StableSort

/-! ## The segmentation -/

/-- Everything one segmentation produces. -/
structure EyesSegmentation where
  blocks : List EyesBlock
  pickupExport : List EyesPickupRow
  episodes : List EyesAppEpisode
  appUsageChunks : List EyesAppUsageChunk
  finalAppUsage : List EyesFinalAppUsage
  observationStartNs : Int
  observationEndNs : Int

/-- `EyesSegmentation::default` -/
def EyesSegmentation.default : EyesSegmentation := ⟨[], [], [], [], [], 0, 0⟩

/-- The events in order of time, each with its signal. -/
def orderedSignals (events : List EyesEvent) : List (EyesEvent × EyesSignal) :=
  (sortByKey EyesEvent.timestampNs events).map fun event => (event, event.signal)

/-- `segment_eyes_complement` -/
def segmentEyesComplement (events : List EyesEvent) (options : EyesOptions) : EyesSegmentation :=
  let ordered := orderedSignals events
  match ordered.head? with
  | none => .default
  | some first =>
      let windowStart := first.1.timestampNs
      let windowEnd := (ordered.getLast?.map fun last => last.1.timestampNs).getD windowStart
      let blocks := buildBlockSet ordered options
      let episodes := reconstructAppTriplets ordered options
      let appUsageChunks := mergeAppChunks episodes
      { blocks
        pickupExport := buildPickupExport blocks options
        episodes
        appUsageChunks
        finalAppUsage := splitAndTagAppUsage appUsageChunks blocks options
        observationStartNs := windowStart
        observationEndNs := windowEnd }

/-- The episode that determines a chunk's natural endpoint, and the candidates for it. -/
structure EyesChunkEndpointEvidence where
  chunkIndex : Nat
  endpointNs : Int
  candidateEpisodeIndices : List Nat
  selectedEpisodeIndex : Nat
  selectedEndInference : EyesEpisodeEndInference
deriving DecidableEq, Repr

/-- `max_by_key`: the last of the elements with the greatest key. -/
def maxByKey {α κ : Type*} [LinearOrder κ] (key : α → κ) : List α → Option α
  | [] => none
  | x :: rest => some (rest.foldl (fun best y => if key best ≤ key y then y else best) x)

/-- `chunk_endpoint_evidence` -/
def EyesSegmentation.chunkEndpointEvidence (segmentation : EyesSegmentation) (chunkIndex : Nat) :
    Option EyesChunkEndpointEvidence := do
  let chunk ← segmentation.appUsageChunks[chunkIndex]?
  let candidates := sortByKey id <| chunk.episodeIndices.filter fun episodeIndex =>
    (segmentation.episodes[episodeIndex]?).bind EyesAppEpisode.endNs = some chunk.endNs
  let selectedEpisodeIndex ← maxByKey (fun episodeIndex =>
    let resume := ((segmentation.episodes[episodeIndex]?).bind EyesAppEpisode.timeResumeNs).getD
      i64Min
    toLex (resume, episodeIndex)) candidates
  let selected ← segmentation.episodes[selectedEpisodeIndex]?
  return ⟨chunkIndex, chunk.endNs, candidates, selectedEpisodeIndex, selected.endInference⟩

/-- The endpoints of all chunks, in order. -/
def EyesSegmentation.chunkEndpoints (segmentation : EyesSegmentation) :
    List EyesChunkEndpointEvidence :=
  (List.range segmentation.appUsageChunks.length).filterMap segmentation.chunkEndpointEvidence

/-! ## The receipt -/

/-- The only replay status. -/
inductive EyesReplayStatus where
  | partialReplay
deriving DecidableEq, Repr

/-- The only headline projection. -/
inductive EyesHeadlineProjection where
  | activeOnly
deriving DecidableEq, Repr

/-- What the partial replay leaves out. -/
inductive EyesPartialReplayLimitation where
  | referencePrimarySecondaryConcurrencyUnported
  | pickupExportUnavailableOnProductSurface
  | headlineProjectsActiveFragmentsOnly
deriving DecidableEq, Repr

/-- `EYES_REFERENCE_VERSION` -/
def eyesReferenceVersion : String := "0.1.0"

/-- `EYES_REFERENCE_COMMIT` -/
def eyesReferenceCommit : String := "89549a2d5d9732d8aaaa2f1fed25c1dbffd9a108"

/-- `EYES_REFERENCE_LICENSE` -/
def eyesReferenceLicense : String := "unresolved"

/-- `EYES_REFERENCE_DEFECT_REPAIR_IDS` -/
def eyesReferenceDefectRepairIds : List String :=
  ["stale_predecessor_after_forward_reboot_gap", "non_monotonic_gap_emission",
    "nested_block_cursor_reset"]

/-- The limitations every receipt lists. -/
def partialReplayLimitations : List EyesPartialReplayLimitation :=
  [.referencePrimarySecondaryConcurrencyUnported, .pickupExportUnavailableOnProductSurface,
    .headlineProjectsActiveFragmentsOnly]

/-- The receipt of a partial replay. -/
structure EyesPartialReplayReceipt where
  protocolVersion : String
  status : EyesReplayStatus
  sourceVersion : String
  sourceCommit : String
  sourceLicenseStatus : String
  effectiveOptions : EyesOptions
  referenceDefectRepairIds : List String
  headlineProjection : EyesHeadlineProjection
  fullTaggedFauEvidenceAvailable : Bool
  referencePrimarySecondaryConcurrencyPorted : Bool
  pickupExportExposed : Bool
  pickupExportRowCount : Nat
  limitations : List EyesPartialReplayLimitation

/-- The evidence of one segmentation. -/
structure EyesTaggedFauEvidence where
  protocolVersion : String
  receipt : EyesPartialReplayReceipt
  deviceStateBlocks : List EyesBlock
  episodes : List EyesAppEpisode
  appUsageChunks : List EyesAppUsageChunk
  fragments : List EyesFinalAppUsage
  chunkEndpoints : List EyesChunkEndpointEvidence

/-- The evidence of one participant. -/
structure EyesParticipantTaggedFauEvidence where
  participantId : String
  evidence : EyesTaggedFauEvidence

/-- `tagged_fau_evidence`; the row count is cast to 32 bits. -/
def EyesSegmentation.taggedFauEvidence (segmentation : EyesSegmentation)
    (effectiveOptions : EyesOptions) : EyesTaggedFauEvidence where
  protocolVersion := "chronicle-eyes-tagged-fau-evidence/v1"
  receipt :=
    { protocolVersion := "chronicle-eyes-partial-replay-receipt/v1"
      status := .partialReplay
      sourceVersion := eyesReferenceVersion
      sourceCommit := eyesReferenceCommit
      sourceLicenseStatus := eyesReferenceLicense
      effectiveOptions
      referenceDefectRepairIds := eyesReferenceDefectRepairIds
      headlineProjection := .activeOnly
      fullTaggedFauEvidenceAvailable := true
      referencePrimarySecondaryConcurrencyPorted := false
      pickupExportExposed := false
      pickupExportRowCount := segmentation.pickupExport.length % 2 ^ 32
      limitations := partialReplayLimitations }
  deviceStateBlocks := segmentation.blocks
  episodes := segmentation.episodes
  appUsageChunks := segmentation.appUsageChunks
  fragments := segmentation.finalAppUsage
  chunkEndpoints := segmentation.chunkEndpoints

/-! ## The validator -/

/-- `char::is_whitespace` -/
def isWhitespace (c : Char) : Bool :=
  let n := c.toNat
  (9 ≤ n ∧ n ≤ 13) ∨ n = 0x20 ∨ n = 0x85 ∨ n = 0xA0 ∨ n = 0x1680 ∨ (0x2000 ≤ n ∧ n ≤ 0x200A) ∨
    n = 0x2028 ∨ n = 0x2029 ∨ n = 0x202F ∨ n = 0x205F ∨ n = 0x3000

/-- `trim().is_empty()` -/
def isBlank (text : String) : Bool := text.toList.all isWhitespace

/-- The error texts of the validator. -/
def taggedFauError (check : String) : String := "eyes_tagged_fau_validation_error:" ++ check

/-- The early return of a check that fails. -/
def rejectIf (failed : Bool) (check : String) : Except String Unit :=
  if failed then .error (taggedFauError check) else .ok ()

/-- The seconds from a resume to an end, refused if they run backward or do not fit. -/
def checkedSeconds (resume stop : Int) : Except String Binary64 :=
  let delta := stop - resume
  if delta < 0 ∨ delta > i64Max then .error (taggedFauError "negative_episode_duration")
  else .ok ((Binary64.ofInt delta).divConst 1000000000)

/-- `expected_episode_duration_seconds` -/
def expectedEpisodeDurationSeconds (episode : EyesAppEpisode) (durationMode : EyesDurationMode) :
    Except String Binary64 :=
  match episode.timeResumeNs with
  | none => .ok (.finite 0)
  | some resume =>
      let seconds (stop : Option Int) : Except String Binary64 :=
        stop.elim (.ok (.finite 0)) (checkedSeconds resume)
      match durationMode with
      | .pauseBound => seconds episode.timePauseNs
      | .tripletStructured =>
          match episode.endInference with
          | .observedStop | .nextBlockStoppedInference | .missingStop | .appKilled
          | .systemShutDown => seconds episode.timeStopNs
          | .pauseFallback => seconds episode.timePauseNs
          | .unobserved => .ok (.finite 0)

/-- The numeric options, in the order they are checked. -/
def EyesOptions.numeric (options : EyesOptions) : List Binary64 :=
  [options.proximityIntervalSeconds, options.blockGlueSeconds, options.gapSilenceHours,
    options.gapRebootNeighborSeconds, options.gapReconcileSeconds, options.pickupMinimumSeconds,
    options.pickupActiveHoleSeconds, options.fauBlockMinimumSeconds]

/-- The derived comparison of options, which compares numbers as numbers. -/
def EyesOptions.eqIeee (options other : EyesOptions) : Bool :=
  options.durationMode = other.durationMode ∧
    (options.numeric.zip other.numeric).all fun (x, y) => x.eqIeee y

/-- Whether the receipt is not the one of this protocol, source and options. -/
def EyesTaggedFauEvidence.foreignReceipt (evidence : EyesTaggedFauEvidence)
    (effectiveOptions : EyesOptions) : Bool :=
  let receipt := evidence.receipt
  evidence.protocolVersion ≠ "chronicle-eyes-tagged-fau-evidence/v1" ∨
    receipt.protocolVersion ≠ "chronicle-eyes-partial-replay-receipt/v1" ∨
    receipt.status ≠ .partialReplay ∨
    receipt.sourceVersion ≠ eyesReferenceVersion ∨
    receipt.sourceCommit ≠ eyesReferenceCommit ∨
    receipt.sourceLicenseStatus ≠ eyesReferenceLicense ∨
    ¬ receipt.effectiveOptions.eqIeee effectiveOptions ∨
    receipt.referenceDefectRepairIds ≠ eyesReferenceDefectRepairIds ∨
    receipt.headlineProjection ≠ .activeOnly ∨
    ¬ receipt.fullTaggedFauEvidenceAvailable ∨
    receipt.referencePrimarySecondaryConcurrencyPorted ∨
    receipt.pickupExportExposed ∨
    receipt.limitations ≠ partialReplayLimitations

/-- `validate_tagged_fau_receipt` -/
def validateTaggedFauReceipt (evidence : EyesTaggedFauEvidence) (effectiveOptions : EyesOptions) :
    Except String Unit := do
  rejectIf (evidence.foreignReceipt effectiveOptions) "receipt_identity"
  let expectedPickupCount :=
    (buildPickupExport evidence.deviceStateBlocks effectiveOptions).length
  rejectIf (expectedPickupCount ≥ 2 ^ 32) "pickup_count_overflow"
  rejectIf (evidence.receipt.pickupExportRowCount ≠ expectedPickupCount) "pickup_count"

/-- Whether the length of a block is one that no producer emits. -/
def EyesBlock.misshapenLength (block : EyesBlock) : Bool :=
  match block.startNs, block.endNs with
  | some start, some stop =>
      let duration := stop - start
      duration < 0 ∨ (duration = 0 ∧ block.blockType ≠ .shutdown) ∨ duration > i64Max
  | _, _ => false

/-- Whether a block has a shape that no producer emits. -/
def EyesBlock.misshapen (block : EyesBlock) : Bool :=
  block.blockType = .active ∨ block.kind = .empty ∨
    (block.kind ≠ .paired ∧ block.blockType ≠ .shutdown) ∨ block.misshapenLength

/-- The preflight of the gaps between blocks. -/
def validateBlockGaps : List EyesBlock → Option Int → Except String Unit
  | [], _ => .ok ()
  | block :: rest, runningEnd =>
      match block.startNs, block.endNs with
      | some start, some stop =>
          if runningEnd.any fun previousEnd =>
              start - previousEnd < i64Min ∨ start - previousEnd > i64Max then
            .error (taggedFauError "block_gap_overflow")
          else validateBlockGaps rest (some (runningEnd.elim stop (max · stop)))
      | _, _ => validateBlockGaps rest runningEnd

/-- The check of one episode. -/
def validateEpisode (durationMode : EyesDurationMode) (episode : EyesAppEpisode) :
    Except String Unit := do
  rejectIf (isBlank episode.appPackageName || !episode.durationSeconds.isFinite ||
    episode.durationSeconds.isNegative) "episode_duration"
  let expected ← expectedEpisodeDurationSeconds episode durationMode
  rejectIf (!episode.durationSeconds.eqIeee expected) "episode_duration"

/-- Whether the span of a chunk runs backward or does not fit. -/
def EyesAppUsageChunk.impossible (chunk : EyesAppUsageChunk) : Bool :=
  chunk.endNs - chunk.startNs < 0 ∨ chunk.endNs - chunk.startNs > i64Max

/-- The checks of one participant's evidence. -/
def validateEvidence (evidence : EyesTaggedFauEvidence) (effectiveOptions : EyesOptions) :
    Except String Unit := do
  let canonicalBlocks := sortByKey EyesBlock.key evidence.deviceStateBlocks
  rejectIf (canonicalBlocks ≠ evidence.deviceStateBlocks ∨
    evidence.deviceStateBlocks.any EyesBlock.misshapen) "block_shape"
  validateBlockGaps evidence.deviceStateBlocks none
  validateTaggedFauReceipt evidence effectiveOptions
  evidence.episodes.forM (validateEpisode effectiveOptions.durationMode)
  let expectedChunks := mergeAppChunks evidence.episodes
  rejectIf (evidence.appUsageChunks ≠ expectedChunks ∨
    expectedChunks.any EyesAppUsageChunk.impossible) "app_usage_chunks"
  let expectedFragments :=
    splitAndTagAppUsage expectedChunks evidence.deviceStateBlocks effectiveOptions
  rejectIf (evidence.fragments ≠ expectedFragments) "fragments"
  let segmentation : EyesSegmentation :=
    { blocks := evidence.deviceStateBlocks
      pickupExport := buildPickupExport evidence.deviceStateBlocks effectiveOptions
      episodes := evidence.episodes
      appUsageChunks := expectedChunks
      finalAppUsage := expectedFragments
      observationStartNs := 0
      observationEndNs := 0 }
  rejectIf (evidence.chunkEndpoints ≠ segmentation.chunkEndpoints) "chunk_endpoints"

/-- The loop over the participants: their ids are nonblank, ascending and distinct. -/
def validateParticipants (effectiveOptions : EyesOptions) :
    List EyesParticipantTaggedFauEvidence → Option String → List String → Except String Unit
  | [], _, _ => .ok ()
  | participant :: rest, previous, seen => do
      rejectIf (isBlank participant.participantId ||
        (previous.any fun value => value ≥ participant.participantId) ||
        participant.participantId ∈ seen) "participant_order"
      validateEvidence participant.evidence effectiveOptions
      validateParticipants effectiveOptions rest (some participant.participantId)
        (participant.participantId :: seen)

/-- `validate_eyes_tagged_fau_evidence` -/
def validateEyesTaggedFauEvidence (participants : List EyesParticipantTaggedFauEvidence)
    (effectiveOptions : EyesOptions) : Except String Unit := do
  rejectIf (effectiveOptions.numeric.any fun value => !value.isFinite || value.isNegative)
    "effective_options"
  validateParticipants effectiveOptions participants none []

end Chronicle.Eyes
