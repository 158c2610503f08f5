import Chronicle.Library.Stages
import Chronicle.MaximumDuration.LegacyHours
import Chronicle.Pipeline.Reconstruction

/-!
# The maximum duration selection

A request names a policy, a disposition, a source of the threshold and perhaps the threshold itself.
Five combinations are legal, and every explicit one also restates the legacy maximum in its canonical
spelling. What resolves can be executed.
-/

namespace Chronicle.MaximumDuration

open Chronicle.Library Chronicle.Library.Machine
open Chronicle.Pipeline (MaximumDurationDisposition)

/-- `MaximumDurationPolicy` -/
inductive MaximumDurationPolicy where
  | strategyNative
  | chronicleObservedCloseRejectionV1
  | postReconstructionStrictMaxV1
deriving DecidableEq, Repr

/-- `MaximumDurationPolicy::ALL` -/
def MaximumDurationPolicy.all : List MaximumDurationPolicy :=
  [.strategyNative, .chronicleObservedCloseRejectionV1, .postReconstructionStrictMaxV1]

/-- `MaximumDurationPolicy::canonical_id` -/
def MaximumDurationPolicy.canonicalId : MaximumDurationPolicy → String
  | .strategyNative => "strategy_native"
  | .chronicleObservedCloseRejectionV1 => "chronicle_observed_close_rejection_v1"
  | .postReconstructionStrictMaxV1 => "post_reconstruction_strict_max_v1"

/-- `MaximumDurationDisposition::is_active` -/
def isActive (disposition : MaximumDurationDisposition) : Bool := disposition != .notApplicable

/-- `MaximumDurationThresholdSource` -/
inductive MaximumDurationThresholdSource where
  | strategyNative
  | chronicleLegacyConfig
  | fixedParameter
  | b12AdaptiveParticipant
deriving DecidableEq, Repr

/-- `MaximumDurationThresholdSource::ALL` -/
def MaximumDurationThresholdSource.all : List MaximumDurationThresholdSource :=
  [.strategyNative, .chronicleLegacyConfig, .fixedParameter, .b12AdaptiveParticipant]

/-- `MaximumDurationThresholdSource::canonical_id` -/
def MaximumDurationThresholdSource.canonicalId : MaximumDurationThresholdSource → String
  | .strategyNative => "strategy_native"
  | .chronicleLegacyConfig => "chronicle_legacy_config"
  | .fixedParameter => "fixed_parameter"
  | .b12AdaptiveParticipant => "b12_adaptive_participant"

/-- `EpisodeReconstructionStrategy` -/
inductive EpisodeReconstructionStrategy where
  | fusedMatcher
  | parryTothForwardPairing
  | eyesComplement
  | gesisStartStopRepair
  | foregroundBackgroundPairing
  | draxlerInterruptionAware
  | morrisonLockTolerant
  | schoedel2026AppWithinScreenProseV1
deriving DecidableEq, Repr

/-! ## The request -/

/-- `MaximumDurationRequest` -/
structure MaximumDurationRequest where
  policy : Option String
  disposition : Option String
  thresholdSource : Option String
  thresholdNs : Option String
  longDurationThresholdExplicit : Bool
  legacyThresholdHoursCanonical : Option String
  legacyThresholdNsCanonical : Option String
deriving DecidableEq, Repr

/-- `MaximumDurationSelectionShape` -/
inductive MaximumDurationSelectionShape where
  | omittedLegacy
  | explicitStrategyNative
  | explicitChronicleRejection
  | explicitGenericFixed
  | explicitGenericAdaptive
deriving DecidableEq, Repr

/-- `MaximumDurationConfig` -/
structure MaximumDurationConfig where
  shape : MaximumDurationSelectionShape
  explicit : Bool
  policy : MaximumDurationPolicy
  disposition : MaximumDurationDisposition
  thresholdSource : MaximumDurationThresholdSource
  thresholdNs : Option Int
  longDurationThresholdExplicit : Bool
  legacyThresholdHoursCanonical : Option String
  legacyThresholdNsCanonical : Option String
deriving DecidableEq, Repr

/-- `MaximumDurationConfig::omitted` -/
def MaximumDurationConfig.omitted : MaximumDurationConfig where
  shape := .omittedLegacy
  explicit := false
  policy := .strategyNative
  disposition := .notApplicable
  thresholdSource := .strategyNative
  thresholdNs := none
  longDurationThresholdExplicit := false
  legacyThresholdHoursCanonical := none
  legacyThresholdNsCanonical := none

/-- `MaximumDurationConfig::generic_stage_active` -/
def MaximumDurationConfig.genericStageActive (config : MaximumDurationConfig) : Bool :=
  config.policy == .postReconstructionStrictMaxV1 && config.thresholdNs.isSome

variable (text : Binary64Text)

/-- `MaximumDurationRelation` -/
inductive MaximumDurationRelation where
  | baselineNative
  | baselineEquivalent
  | controlledDerivative
  | refused
deriving DecidableEq, Repr

/-- `reconstruction_native_stage` -/
def reconstructionNativeStage : EpisodeReconstructionStrategy → String
  | .fusedMatcher => "fused_candidate_close_admissibility"
  | .gesisStartStopRepair => "gesis_fallback_timeout_600s"
  | .eyesComplement => "eyes_device_state_blocks"
  | .draxlerInterruptionAware => "draxler_inactivity_closer_600s"
  | .parryTothForwardPairing | .foregroundBackgroundPairing | .morrisonLockTolerant
  | .schoedel2026AppWithinScreenProseV1 => "none"

/-- `MaximumDurationApplicability` -/
structure MaximumDurationApplicability where
  protocolVersion : String
  shape : MaximumDurationSelectionShape
  requestedPolicy : MaximumDurationPolicy
  effectivePolicy : Option MaximumDurationPolicy
  disposition : MaximumDurationDisposition
  thresholdSource : MaximumDurationThresholdSource
  thresholdNs : Option String
  relation : MaximumDurationRelation
  refusalReason : Option MaximumDurationRefusalReason
  b06EffectiveStage : String
  reconstructionNativeStage : String
  checkedI128Preflight : Option String
  legacyThresholdHoursCanonical : Option String
  legacyThresholdNsCanonical : Option String
  legacyOrigin : String
deriving DecidableEq, Repr

/-- Where the legacy maximum comes from. -/
def MaximumDurationRequest.legacyOrigin (request : MaximumDurationRequest) : String :=
  if request.longDurationThresholdExplicit then "chronicle_legacy_explicit_v1"
  else "chronicle_legacy_default_v1"

section Resolved

variable {text} {request : MaximumDurationRequest} {strategy : EpisodeReconstructionStrategy}
  {longDurationThresholdNs : Int} {config : MaximumDurationConfig}
  {applicability : MaximumDurationApplicability}

end Resolved

end Chronicle.MaximumDuration
