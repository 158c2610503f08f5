import Chronicle.Library.Tally
import Chronicle.MaximumDuration.Request
import Mathlib.Algebra.BigOperators.Group.List.Basic
import Mathlib.Data.List.Lex

/-!
# The receipt of a maximum duration selection

The receipt adds up what an explicit selection does to the episodes, and lists the episodes that it
excludes. No nanosecond is lost: each is effective, trimmed or dropped. The order of the episodes
does not show in the receipt.
-/

namespace Chronicle.MaximumDuration

open Chronicle.Library Chronicle.Library.Machine Chronicle.Library.StableSort
open Chronicle.Pipeline (MaximumDurationDisposition SourceDataRowRange truncatedStopNs)

/-- `B06_RECEIPT_PROTOCOL_VERSION` -/
def b06ReceiptProtocolVersion : String := "chronicle-maximum-duration-receipt/v1"

/-- `B06_CHECKPOINT` -/
def b06Checkpoint : String := "episode_materialized_pre_concurrency"

/-- `MaximumDurationRowOutcome` -/
inductive MaximumDurationRowOutcome where
  | boundedNotQualified
  | flaggedRetained
  | retainedExcluded
  | truncated
  | dropped
  | unboundedNoAction
  | nativePolicyOwned
deriving DecidableEq, Repr

/-- `MaximumDurationRowOutcome::canonical_id` -/
def MaximumDurationRowOutcome.canonicalId : MaximumDurationRowOutcome → String
  | .boundedNotQualified => "bounded_not_qualified"
  | .flaggedRetained => "flagged_retained"
  | .retainedExcluded => "retained_excluded"
  | .truncated => "truncated"
  | .dropped => "dropped"
  | .unboundedNoAction => "unbounded_no_action"
  | .nativePolicyOwned => "native_policy_owned"

/-- `MaximumDurationExcludedEpisode` -/
structure MaximumDurationExcludedEpisode where
  participantId : String
  appPackageName : String
  sourceDataRowRanges : List SourceDataRowRange
  rawStartTimestampNs : Int
  rawStopTimestampNs : Int
  rawDurationNs : Int
  effectiveStopTimestampNs : Option Int
  effectiveDurationNs : Option Int
  trimmedNs : Int
  outcome : MaximumDurationRowOutcome
  disposition : MaximumDurationDisposition
deriving DecidableEq, Repr

/-- `MaximumDurationReceipt` -/
structure MaximumDurationReceipt where
  protocolVersion : String
  applicability : MaximumDurationApplicability
  checkpoint : String
  boundedEpisodeCount : Nat
  unboundedEpisodeCount : Nat
  qualifyingCount : Nat
  outcomeCounts : Tally String
  rawDurationTotalNs : String
  effectiveDurationTotalNs : String
  trimmedTotalNs : String
  droppedRawTotalNs : String
  headlineCreditedTotalNs : String
  excludedLineageDigest : String

/-- `MaximumDurationEpisodeInput` -/
structure MaximumDurationEpisodeInput where
  participantId : String
  appPackageName : String
  sourceDataRowRanges : List SourceDataRowRange
  rawStartTimestampNs : Int
  rawStopTimestampNs : Option Int
  rawDurationNs : Option Int
deriving DecidableEq, Repr

/-- `MaximumDurationEvidence` -/
structure MaximumDurationEvidence where
  receipt : MaximumDurationReceipt
  excludedEpisodes : List MaximumDurationExcludedEpisode

/-- The key of `canonicalize_excluded_episodes`. -/
def MaximumDurationExcludedEpisode.key (excluded : MaximumDurationExcludedEpisode) :
    String ×ₗ Int ×ₗ Int ×ₗ String ×ₗ List (Nat ×ₗ Nat) :=
  toLex (excluded.participantId, toLex (excluded.rawStartTimestampNs,
    toLex (excluded.rawStopTimestampNs, toLex (excluded.appPackageName,
      excluded.sourceDataRowRanges.map fun range => toLex (range.first, range.last)))))

/-- `canonicalize_excluded_episodes` -/
def canonicalizeExcludedEpisodes (excluded : List MaximumDurationExcludedEpisode) :
    List MaximumDurationExcludedEpisode :=
  sortByKey (·.key) excluded

/-- `qualifies` -/
def qualifies (rawDurationNs thresholdNs : Int) : Bool := decide (rawDurationNs > thresholdNs)

/-! ## Building the evidence -/

/-- What becomes of a qualifying episode. -/
structure Settlement where
  outcome : MaximumDurationRowOutcome
  effectiveStop : Option Int
  effectiveDuration : Option Int
  trimmedNs : Int
  recordsLineage : Bool
deriving DecidableEq, Repr

/-- The arms of `build_evidence` over the disposition. -/
def settle (disposition : MaximumDurationDisposition)
    (rawStart rawStop rawDuration thresholdNs : Int) : Except String Settlement :=
  match disposition with
  | .notApplicable | .flagAndRetain =>
      .ok ⟨.flaggedRetained, some rawStop, some rawDuration, 0, false⟩
  | .retainButExclude => .ok ⟨.retainedExcluded, some rawStop, some rawDuration, 0, true⟩
  | .truncateToThreshold => do
      let stop ← truncatedStopNs rawStart thresholdNs
      pure ⟨.truncated, some stop, some thresholdNs, wrap64 (rawDuration - thresholdNs), true⟩
  | .dropRow => .ok ⟨.dropped, none, none, rawDuration, true⟩

/-- The accumulators of `build_evidence`. -/
structure Census where
  boundedEpisodeCount : Nat := 0
  unboundedEpisodeCount : Nat := 0
  qualifyingCount : Nat := 0
  outcomeCounts : Tally String := []
  rawTotal : Int := 0
  effectiveTotal : Int := 0
  trimmedTotal : Int := 0
  droppedRawTotal : Int := 0
  headlineTotal : Int := 0
  excluded : List MaximumDurationExcludedEpisode := []

/-- The closure `count`. -/
def Census.count (census : Census) (outcome : MaximumDurationRowOutcome) : Census :=
  { census with outcomeCounts := Tally.bump outcome.canonicalId census.outcomeCounts }

/-- The lineage record of a settled episode. -/
def lineageRecord (episode : MaximumDurationEpisodeInput) (rawStop rawDuration : Int)
    (disposition : MaximumDurationDisposition) (settlement : Settlement) :
    MaximumDurationExcludedEpisode where
  participantId := episode.participantId
  appPackageName := episode.appPackageName
  sourceDataRowRanges := episode.sourceDataRowRanges
  rawStartTimestampNs := episode.rawStartTimestampNs
  rawStopTimestampNs := rawStop
  rawDurationNs := rawDuration
  effectiveStopTimestampNs := settlement.effectiveStop
  effectiveDurationNs := settlement.effectiveDuration
  trimmedNs := settlement.trimmedNs
  outcome := settlement.outcome
  disposition

/-- The end of the loop body, after the disposition. -/
def Census.settled (census : Census) (episode : MaximumDurationEpisodeInput)
    (rawStop rawDuration : Int) (disposition : MaximumDurationDisposition)
    (settlement : Settlement) : Census :=
  let census := census.count settlement.outcome
  let effective := settlement.effectiveDuration.getD 0
  { census with
    effectiveTotal := census.effectiveTotal + effective
    trimmedTotal := census.trimmedTotal +
      if settlement.outcome = .truncated then settlement.trimmedNs else 0
    droppedRawTotal :=
      if settlement.outcome = .dropped then census.droppedRawTotal + rawDuration
      else census.droppedRawTotal
    headlineTotal :=
      if settlement.outcome = .flaggedRetained ∨ settlement.outcome = .truncated then
        census.headlineTotal + effective
      else census.headlineTotal
    excluded :=
      if settlement.recordsLineage then
        census.excluded ++ [lineageRecord episode rawStop rawDuration disposition settlement]
      else census.excluded }

/-- The threshold and the disposition of the generic stage, if it is active. -/
abbrev GenericStage := Option (Int × MaximumDurationDisposition)

def MaximumDurationConfig.generic (config : MaximumDurationConfig) : GenericStage :=
  if config.genericStageActive then
    config.thresholdNs.map fun thresholdNs => (thresholdNs, config.disposition)
  else none

variable (lineageDigest : List MaximumDurationExcludedEpisode → String)

/-- The evidence of a finished census. -/
def Census.evidence (census : Census) (applicability : MaximumDurationApplicability) :
    MaximumDurationEvidence where
  receipt :=
    { protocolVersion := b06ReceiptProtocolVersion
      applicability
      checkpoint := b06Checkpoint
      boundedEpisodeCount := census.boundedEpisodeCount
      unboundedEpisodeCount := census.unboundedEpisodeCount
      qualifyingCount := census.qualifyingCount
      outcomeCounts := census.outcomeCounts
      rawDurationTotalNs := toString census.rawTotal
      effectiveDurationTotalNs := toString census.effectiveTotal
      trimmedTotalNs := toString census.trimmedTotal
      droppedRawTotalNs := toString census.droppedRawTotal
      headlineCreditedTotalNs := toString census.headlineTotal
      excludedLineageDigest := lineageDigest (canonicalizeExcludedEpisodes census.excluded) }
  excludedEpisodes := canonicalizeExcludedEpisodes census.excluded

/-- `validate_evidence` -/
def validateEvidence (evidence : MaximumDurationEvidence) : Except String Unit :=
  let receipt := evidence.receipt
  if canonicalizeExcludedEpisodes evidence.excludedEpisodes ≠ evidence.excludedEpisodes then
    .error "maximum_duration_noncanonical_lineage_order"
  else if lineageDigest evidence.excludedEpisodes ≠ receipt.excludedLineageDigest then
    .error "maximum_duration_lineage_digest_mismatch"
  else if receipt.protocolVersion ≠ b06ReceiptProtocolVersion ∨
      receipt.checkpoint ≠ b06Checkpoint then
    .error "maximum_duration_receipt_protocol_mismatch"
  else if (receipt.outcomeCounts.map Prod.snd).sum ≠
      receipt.boundedEpisodeCount + receipt.unboundedEpisodeCount then
    .error "maximum_duration_outcome_count_mismatch"
  else if receipt.outcomeCounts.totalOf
      (fun id => id == "retained_excluded" || id == "truncated" || id == "dropped") ≠
      evidence.excludedEpisodes.length then
    .error "maximum_duration_lineage_count_mismatch"
  else if receipt.applicability.refusalReason.isSome then
    .error "maximum_duration_refused_receipt_published"
  else .ok ()

variable {lineageDigest : List MaximumDurationExcludedEpisode → String}

/-- What the check asks of an evidence. -/
theorem validateEvidence_eq_ok {evidence : MaximumDurationEvidence} :
    validateEvidence lineageDigest evidence = .ok () ↔
      canonicalizeExcludedEpisodes evidence.excludedEpisodes = evidence.excludedEpisodes ∧
        lineageDigest evidence.excludedEpisodes = evidence.receipt.excludedLineageDigest ∧
        evidence.receipt.protocolVersion = b06ReceiptProtocolVersion ∧
        evidence.receipt.checkpoint = b06Checkpoint ∧
        (evidence.receipt.outcomeCounts.map Prod.snd).sum =
          evidence.receipt.boundedEpisodeCount + evidence.receipt.unboundedEpisodeCount ∧
        evidence.receipt.outcomeCounts.totalOf
          (fun id => id == "retained_excluded" || id == "truncated" || id == "dropped") =
          evidence.excludedEpisodes.length ∧
        evidence.receipt.applicability.refusalReason = none := by
  unfold validateEvidence
  simp only [Stages.ite_error_eq_ok, ne_eq, not_not, not_or, and_assoc, Bool.not_eq_true,
    Option.isSome_eq_false_iff, Option.isNone_iff_eq_none, and_true]

end Chronicle.MaximumDuration
