import Chronicle.Pipeline.Reconstruction
import Chronicle.Screens.Types

/-!
# Candidate rows of prose episodes

The prose reconstruction hands the pipeline episodes instead of index lists. Each episode becomes a
copy of its start row; unbounded episodes follow the bounded ones.
-/

namespace Chronicle.Pipeline

open Chronicle.Screens

/-- The row that holds a raw data row; of several the last one counts. -/
def rowBySource (rows : List Row) (source : Nat) : Option Row :=
  rows.reverse.find? fun row => source ∈ row.sourceDataRows.iter

/-- The copy of the start row that carries the episode. -/
def schoedelRow (row : Row) (episode : SchoedelEpisodeEvidence) : Row :=
  { row with
    sourceDataRows := episode.sourceRows.foldl (fun lineage source => lineage.merge [⟨source, source⟩]) []
    startTimestampNs := some episode.startNs
    stopTimestampNs := episode.stopNs
    appUsageEndReason := some episode.completion.canonicalId }

/-- The copy of an unbounded episode. -/
def schoedelUnboundedRow (row : Row) (episode : SchoedelEpisodeEvidence) : Row :=
  { schoedelRow row episode with
    interactionType := endOfUsageMissing
    rawEpisodeStartTimestampNs := some episode.startNs
    rawEpisodeStopTimestampNs := none
    rawEpisodeDurationNs := none
    durationSeconds := none
    durationMinutes := none
    microUseClassification := none
    minimumDurationQualified := none }

/-- The copies of the episodes, each with whether it is bounded. -/
def schoedelRows (rows : List Row) :
    List SchoedelEpisodeEvidence → Except String (List (Bool × Row))
  | [] => .ok []
  | episode :: episodes =>
      match rowBySource rows episode.startSourceRow with
      | none => .error "schoedel_materialization_error:start_source_row_missing"
      | some row =>
          (schoedelRows rows episodes).map
            (if episode.boundedHeadlineCandidate then ((true, schoedelRow row episode) :: ·)
            else ((false, schoedelUnboundedRow row episode) :: ·))

/-- `materialize_schoedel_candidate_rows`: the rows, and the positions of the bounded rows that are
no resumes. -/
def materializeSchoedelCandidateRows (rows : List Row) (episodes : List SchoedelEpisodeEvidence) :
    Except String (List Row × List Nat) :=
  (schoedelRows rows episodes).map fun copies =>
    let bounded := (copies.filter Prod.fst).map Prod.snd
    let unbounded := (copies.filter fun copy => !copy.1).map Prod.snd
    (bounded ++ unbounded,
      ((positioned bounded).filter fun entry =>
        entry.2.interactionType ≠ activityResumed).map Prod.fst)

end Chronicle.Pipeline
