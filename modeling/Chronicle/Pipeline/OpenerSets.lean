import Chronicle.Pipeline.ScreenSessions
import Chronicle.Pipeline.SingleOpen

/-!
# Reconstruction strategies and opener sets

Which rows may open an episode, what a strategy makes of the choice, and the strategy that pairs
every resume with the next pause of its package.
-/

namespace Chronicle.Pipeline

open Chronicle.Library.StableSort Chronicle.Matcher

/-! ## Strategies -/

/-- `EpisodeReconstructionStrategy` -/
inductive EpisodeReconstructionStrategy where
  | fusedMatcher
  | parryTothForwardPairing
  | eyesComplement
  | gesisStartStopRepair
  | foregroundBackgroundPairing
  | draxlerInterruptionAware
  | morrisonLockTolerant
  | schoedel2026AppWithinScreenProseV1
deriving DecidableEq, Repr

/-- `EpisodeReconstructionStrategy::canonical_id` -/
def EpisodeReconstructionStrategy.canonicalId : EpisodeReconstructionStrategy → String
  | fusedMatcher => "fused_matcher"
  | parryTothForwardPairing => "parry_toth_forward_pairing"
  | eyesComplement => "eyes_complement"
  | gesisStartStopRepair => "gesis_start_stop_repair"
  | foregroundBackgroundPairing => "foreground_background_pairing"
  | draxlerInterruptionAware => "draxler_interruption_aware"
  | morrisonLockTolerant => "morrison_lock_tolerant"
  | schoedel2026AppWithinScreenProseV1 => "schoedel_2026_app_within_screen_prose_v1"

/-! ## Opener sets -/

/-- `OpenerSet` -/
inductive OpenerSet where
  | strategyDefined
  | activityResumedOnly
  | gesisAppScopedStarts
deriving DecidableEq, Repr

/-- `OpenerStrategyRelation` -/
inductive OpenerStrategyRelation where
  | baselineNative
  | baselineEquivalent
  | sourceEquivalent
  | sourceAlignedAdapter
  | controlledDerivative
  | refused
deriving DecidableEq, Repr

/-- `OpenerSetRefusalReason` -/
inductive OpenerSetRefusalReason where
  | eyesRequiresLifecycleTriplets
deriving DecidableEq, Repr

/-- `OpenerSetRefusalReason::canonical_id` -/
def OpenerSetRefusalReason.canonicalId : OpenerSetRefusalReason → String
  | eyesRequiresLifecycleTriplets => "eyes_requires_lifecycle_triplets"

/-- `OpenerSetApplicability` -/
structure OpenerSetApplicability where
  requested : OpenerSet
  effective : Option OpenerSet
  relation : OpenerStrategyRelation
  refusalReason : Option OpenerSetRefusalReason
deriving DecidableEq, Repr

/-- `OpenerSetApplicability::is_executable` -/
def OpenerSetApplicability.isExecutable (applicability : OpenerSetApplicability) : Bool :=
  applicability.relation ≠ .refused

namespace OpenerSet

/-- `OpenerSet::canonical_id` -/
def canonicalId : OpenerSet → String
  | strategyDefined => "strategy_defined"
  | activityResumedOnly => "activity_resumed_only"
  | gesisAppScopedStarts => "gesis_app_scoped_starts"

/-- `OpenerSet::explicit_eligible` -/
def explicitEligible (openerSet : OpenerSet) (interactionType : String) : Bool :=
  match openerSet with
  | strategyDefined => false
  | activityResumedOnly => interactionType ∈ foregroundEvents
  | gesisAppScopedStarts =>
      interactionType ∈ ["Activity Resumed", "Filtered App Resumed", "Continue Previous Day",
        "Standby Bucket Changed", "Slice Pinned App", "Foreground Service Start",
        "Rollover Foreground Service"]

/-- `OpenerSet::applicability` -/
def applicability (openerSet : OpenerSet) (strategy : EpisodeReconstructionStrategy) :
    OpenerSetApplicability :=
  let resolved : Option OpenerSet × OpenerStrategyRelation × Option OpenerSetRefusalReason :=
    match openerSet, strategy with
    | strategyDefined, _ => (some openerSet, .baselineNative, none)
    | activityResumedOnly, .fusedMatcher => (some openerSet, .baselineEquivalent, none)
    | activityResumedOnly, .gesisStartStopRepair => (some openerSet, .controlledDerivative, none)
    | activityResumedOnly, _ => (some openerSet, .sourceEquivalent, none)
    | gesisAppScopedStarts, .eyesComplement =>
        (none, .refused, some .eyesRequiresLifecycleTriplets)
    | gesisAppScopedStarts, .gesisStartStopRepair => (some openerSet, .sourceAlignedAdapter, none)
    | gesisAppScopedStarts, _ => (some openerSet, .controlledDerivative, none)
  { requested := openerSet
    effective := resolved.1
    relation := resolved.2.1
    refusalReason := resolved.2.2 }

end OpenerSet

/-- `GESIS_START_EVENTS` -/
def gesisStartEvents : List String :=
  ["Activity Resumed", "Filtered App Resumed", "Screen Interactive", "Keyguard Hidden",
    "Device Startup", "Screen Interactive/Keyguard Shown"]

/-- Whether the row may open an episode. -/
def eligibleOpener (openerSet : OpenerSet) (strategy : EpisodeReconstructionStrategy) (row : Row) :
    Bool :=
  match openerSet, strategy with
  | .strategyDefined, .gesisStartStopRepair => row.interactionType ∈ gesisStartEvents
  | .strategyDefined, _ => row.interactionType = activityResumed
  | explicit, _ => explicit.explicitEligible row.interactionType

/-- The texts with how often each occurs, in ascending order. -/
def countsOf (texts : List String) : List (String × Nat) :=
  (sortByKey id texts.dedup).map fun text => (text, texts.count text)

/-- `OpenerSetEvidence` -/
structure OpenerSetEvidence where
  applicability : OpenerSetApplicability
  suppressedDeviceOpenerCount : Nat
  selectedOpenerTypeCounts : List (String × Nat)
  materializedOpenerTypeCounts : List (String × Nat)
deriving DecidableEq, Repr

/-- `OpenerSetEvidence::default` -/
def OpenerSetEvidence.default : OpenerSetEvidence where
  applicability := OpenerSet.strategyDefined.applicability .fusedMatcher
  suppressedDeviceOpenerCount := 0
  selectedOpenerTypeCounts := []
  materializedOpenerTypeCounts := []

/-! ## Inputs and outputs -/

/-- `MatcherInput` -/
structure MatcherInput where
  appCodes : List Int
  timestamps : List Int
  resumed : List Bool
  sameStop : List Bool
  otherStop : List Bool
  stopped : List Bool
  background : List Bool
deriving DecidableEq, Repr

/-- An episode of a matcher output: its start and stop row, why it ended, and the explicit instants
of its end and its beginning. -/
structure MergedEpisode where
  start : Nat
  stop : Nat
  reason : EpisodeCloseReason
  stopTimestampNs : Option Int
  startTimestampNs : Option Int
deriving DecidableEq, Repr

/-- `MatcherOutput`, with the evidence that goes with it; `E` is that of an EYES participant. The
receipts that only the prose reconstruction fills are left out. -/
structure EvidencedOutput (E : Type) extends MatcherOutput where
  openerSetEvidence : OpenerSetEvidence := .default
  eyesTaggedFauEvidence : List E := []
  eyesValidationExpectedParticipantIds : List String := []
deriving DecidableEq

/-- The element at an index, or the panic of a read outside the list. -/
def elementAt {α : Type} (values : List α) (index : Nat) : MatcherResult α :=
  match values[index]? with
  | some value => .ok value
  | none => .error (.panicked "index out of bounds")

namespace MatcherOutput

variable (output : MatcherOutput)

/-- The episode at a position of the parallel lists. -/
def closeAt (position : Nat) : MatcherResult MergedEpisode := do
  let start ← elementAt output.stopStartIndices position
  let stop ← elementAt output.stopEventIndices position
  let reason ← elementAt output.stopReasons position
  let stopTimestampNs ← elementAt output.stopTimestampsNs position
  let startTimestampNs ← elementAt output.startTimestampsNs position
  return { start, stop, reason, stopTimestampNs, startTimestampNs }

/-- The episodes of the parallel lists. -/
def closes : MatcherResult (List MergedEpisode) :=
  (List.range output.stopStartIndices.length).mapM output.closeAt

/-- The starts without an end, with why they have none. -/
def missing : List (Nat × EpisodeCloseReason) := output.missingIndices.zip output.missingReasons

end MatcherOutput

/-! ## Rules -/

/-- The rule of a strategy for the rows of one participant: the arrays, the rows and the eligible
openers give an output. -/
abbrev MatchingRule (E : Type) :=
  MatcherInput → List Row → List Bool → MatcherResult (EvidencedOutput E)

/-- The resumes of a package that still wait for a pause, and what was found so far. -/
structure PairingState where
  output : MatcherOutput := {}
  waiting : List (Nat × String) := []

/-- One row of `foreground_background_episodes`: the earliest waiting resume of the package is
closed by a pause. -/
def PairingState.step (state : PairingState) (entry : (Row × Bool) × Nat) : PairingState :=
  let ((row, eligible), index) := entry
  if eligible then
    { output := { state.output with startIndices := state.output.startIndices ++ [index] }
      waiting := state.waiting ++ [(index, row.appPackageName)] }
  else if row.interactionType = activityPaused then
    match state.waiting.find? (·.2 = row.appPackageName) with
    | none => state
    | some waiting =>
        { output := closeUse state.output waiting.1 index .samePackageBackgrounded none
          waiting := state.waiting.erase waiting }
  else state

/-- `foreground_background_episodes` -/
def foregroundBackgroundEpisodes (rows : List Row) (eligible : List Bool) : MatcherOutput :=
  let state := (rows.zip eligible).zipIdx.foldl PairingState.step {}
  { state.output with
    missingIndices := state.waiting.map Prod.fst
    missingReasons := state.waiting.map fun _ => .unobserved }

/-- `match_app_episodes_for_one_participant`; the rules over the event arrays and that of EYES are
given. -/
def matchAppEpisodesForOneParticipant {E : Type}
    (given : EpisodeReconstructionStrategy → MatchingRule E)
    (strategy : EpisodeReconstructionStrategy) : MatchingRule E := fun input rows eligible =>
  match strategy with
  | .foregroundBackgroundPairing =>
      .ok { toMatcherOutput := foregroundBackgroundEpisodes rows eligible }
  | .draxlerInterruptionAware => .ok { toMatcherOutput := draxlerEpisodes rows eligible }
  | .morrisonLockTolerant => .ok { toMatcherOutput := morrisonEpisodes rows eligible }
  | .schoedel2026AppWithinScreenProseV1 =>
      .error (.error ("schoedel_2026_app_within_screen_prose_v1 requires the typed B05 " ++
        "reconstruction seam"))
  | strategy => given strategy input rows eligible

end Chronicle.Pipeline
