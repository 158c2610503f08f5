import Mathlib.Data.String.Basic
import Chronicle.Eyes.BlockShape

/-!
# Usage chunks

`merge_app_chunks` merges the overlapping episodes of each package. A chunk starts and ends at
endpoints of its episodes, so it spans a representable and nonnegative time.
-/

namespace Chronicle.Eyes

open Chronicle.Library Chronicle.Library.Machine Chronicle.Library.StableSort

/-! ## The model -/

/-- Where an episode effectively ends: at its stop, or else at its pause. -/
def EyesAppEpisode.endNs (episode : EyesAppEpisode) : Option Int :=
  episode.timeStopNs.or episode.timePauseNs

/-- The interval of an episode that has both a resume and an end. -/
def EyesAppEpisode.interval (episode : EyesAppEpisode) : Option (Int × Int) :=
  match episode.timeResumeNs, episode.endNs with
  | some start, some stop => some (start, stop)
  | _, _ => none

/-- One interval of a package, and the index of its episode. -/
structure AppInterval where
  appPackageName : String
  startNs : Int
  endNs : Int
  episodeIndex : Nat
deriving DecidableEq, Repr

/-- The intervals of the episodes, in order. -/
def appIntervals (episodes : List EyesAppEpisode) : List AppInterval :=
  episodes.zipIdx.filterMap fun (episode, index) =>
    episode.interval.map fun (start, stop) => ⟨episode.appPackageName, start, stop, index⟩

/-- The merge of one package's sorted intervals, with the chunk that is open. -/
def mergeIntervals (package : String) :
    List AppInterval → Option EyesAppUsageChunk → List EyesAppUsageChunk
  | [], current => current.toList
  | interval :: rest, some chunk =>
      if interval.startNs ≤ chunk.endNs then
        mergeIntervals package rest (some
          { chunk with
            endNs := max chunk.endNs interval.endNs
            episodeIndices := chunk.episodeIndices ++ [interval.episodeIndex] })
      else
        chunk :: mergeIntervals package rest
          (some ⟨package, interval.startNs, interval.endNs, [interval.episodeIndex]⟩)
  | interval :: rest, none =>
      mergeIntervals package rest
        (some ⟨package, interval.startNs, interval.endNs, [interval.episodeIndex]⟩)

/-- The keys of the ordered map from package to intervals. -/
def intervalPackages (intervals : List AppInterval) : List String :=
  sortByKey id (intervals.map AppInterval.appPackageName).dedup

/-- `merge_app_chunks` -/
def mergeAppChunks (episodes : List EyesAppEpisode) : List EyesAppUsageChunk :=
  let intervals := appIntervals episodes
  let chunks := (intervalPackages intervals).flatMap fun package =>
    mergeIntervals package
      (sortByKey (fun interval => toLex (interval.startNs, interval.endNs))
        (intervals.filter fun interval => interval.appPackageName = package))
      none
  sortByKey (fun chunk => toLex (chunk.startNs, chunk.appPackageName)) chunks

/-! ## The span of a chunk -/

/-- A chunk runs forward between two instants. -/
structure ChunkSpan (instants : Set Int) (chunk : EyesAppUsageChunk) : Prop where
  start : chunk.startNs ∈ instants
  stop : chunk.endNs ∈ instants
  forward : chunk.startNs ≤ chunk.endNs

/-- An episode that has both a resume and an end runs forward between two instants. -/
def EpisodeSpan (instants : Set Int) (episode : EyesAppEpisode) : Prop :=
  ∀ span ∈ episode.interval, span.1 ∈ instants ∧ span.2 ∈ instants ∧ span.1 ≤ span.2

variable {instants : Set Int}

theorem mergeIntervals_span {package : String} {intervals : List AppInterval}
    {current : Option EyesAppUsageChunk}
    (hintervals : ∀ interval ∈ intervals, interval.startNs ∈ instants ∧
      interval.endNs ∈ instants ∧ interval.startNs ≤ interval.endNs)
    (hcurrent : ∀ chunk ∈ current, ChunkSpan instants chunk) :
    ∀ chunk ∈ mergeIntervals package intervals current, ChunkSpan instants chunk := by
  fun_induction mergeIntervals package intervals current with
  | case1 current => simpa using hcurrent
  | case2 interval rest chunk hoverlap ih =>
      obtain ⟨⟨-, hstop, -⟩, hrest⟩ := List.forall_mem_cons.mp hintervals
      have hchunk := hcurrent chunk rfl
      refine ih hrest fun merged hmerged => ?_
      obtain rfl := Option.some.inj hmerged
      refine ⟨hchunk.start, ?_, hchunk.forward.trans (le_max_left _ _)⟩
      rcases max_choice chunk.endNs interval.endNs with hmax | hmax <;> simp only [hmax]
      · exact hchunk.stop
      · exact hstop
  | case3 interval rest chunk hapart ih =>
      obtain ⟨⟨hstart, hstop, hforward⟩, hrest⟩ := List.forall_mem_cons.mp hintervals
      refine List.forall_mem_cons.mpr ⟨hcurrent chunk rfl, ih hrest fun opened hopened => ?_⟩
      obtain rfl := Option.some.inj hopened
      exact ⟨hstart, hstop, hforward⟩
  | case4 interval rest ih =>
      obtain ⟨⟨hstart, hstop, hforward⟩, hrest⟩ := List.forall_mem_cons.mp hintervals
      refine ih hrest fun opened hopened => ?_
      obtain rfl := Option.some.inj hopened
      exact ⟨hstart, hstop, hforward⟩

/-- Chunks merged from episodes that run forward do so too. -/
theorem mergeAppChunks_span {episodes : List EyesAppEpisode}
    (h : ∀ episode ∈ episodes, EpisodeSpan instants episode) :
    ∀ chunk ∈ mergeAppChunks episodes, ChunkSpan instants chunk := by
  intro chunk hchunk
  simp only [mergeAppChunks, mem_sortByKey, List.mem_flatMap] at hchunk
  obtain ⟨package, -, hmem⟩ := hchunk
  refine mergeIntervals_span (fun interval hinterval => ?_)
    (fun _ h => absurd h (Option.not_mem_none _)) chunk hmem
  rw [mem_sortByKey] at hinterval
  obtain ⟨⟨episode, index⟩, hepisode, hspan⟩ :=
    List.mem_filterMap.mp (List.mem_of_mem_filter hinterval)
  obtain ⟨span, hmapped, rfl⟩ := Option.map_eq_some_iff.mp hspan
  exact h episode (List.fst_mem_of_mem_zipIdx hepisode) span hmapped

end Chronicle.Eyes
