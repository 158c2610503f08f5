import Mathlib.Data.List.Destutter
import Chronicle.Eyes.Acceptance
import Chronicle.Eyes.ChunkOrigins
import Chronicle.Eyes.TripletConservation
import Chronicle.Pipeline.SingleOpen

/-!
# The intervals of the EYES rule

`eyes_complement_episodes` segments the rows of one participant and maps the result back to row
indices. Each ACTIVE fragment is traced through its chunk to the episodes merged into it, and through
their resumes to the rows that may open them; it is attributed to the earliest of these rows, and
skipped if there is none.
-/

namespace Chronicle.Pipeline

open Chronicle.Eyes Chronicle.Library Chronicle.Library.StableSort Chronicle.Matcher

/-! ## The model -/

/-- The event that the segmentation reads of a row. -/
def Row.eyesEvent (row : Row) : EyesEvent :=
  ⟨row.eventTimestampNs, row.interactionType, row.appPackageName⟩

/-- `eyes_close_reason` -/
def eyesCloseReason : EyesEpisodeEndInference → EpisodeCloseReason
  | .observedStop | .appKilled | .nextBlockStoppedInference => .eyesTripletClose
  | .missingStop => .eyesNextBlockAssumed
  | .pauseFallback => .samePackageBackgrounded
  | .unobserved => .unobserved
  | .systemShutDown => .eyesDeviceStateBoundary

/-- `EyesSegmentation::credited_final_app_usage` -/
def creditedFinalAppUsage (segmentation : EyesSegmentation) : List EyesFinalAppUsage :=
  segmentation.finalAppUsage.filter fun row => row.deviceStatus = .active

/-- A sort of the misses by their rows that promises nothing of equal rows, as
`sort_unstable_by_key` does. -/
structure MissSort where
  sort : List (Nat × EpisodeCloseReason) → List (Nat × EpisodeCloseReason)
  perm : ∀ misses, (sort misses).Perm misses
  sorted : ∀ misses, (sort misses).Pairwise fun a b => a.1 ≤ b.1

/-- The stable sort. -/
def MissSort.stable : MissSort :=
  ⟨sortByKey Prod.fst, perm_sortByKey Prod.fst, pairwise_sortByKey Prod.fst⟩

section Rows

variable (rows : List Row) (eligibleOpener : List Bool)

/-- The row may open an episode of the package that was resumed at the instant. -/
def isResumeRow (resumeNs : Int) (package : String) (index : Nat) : Bool :=
  opensAt eligibleOpener index && ((rowAt rows index).eventTimestampNs = resumeNs : Bool) &&
    ((rowAt rows index).appPackageName = package : Bool)

/-- The entry of `resume_rows`, whose first occurrence wins. -/
def resumeRow (resumeNs : Int) (package : String) : Option Nat :=
  (List.range rows.length).find? (isResumeRow rows eligibleOpener resumeNs package)

/-- The entry of `any_row`, whose first occurrence wins. -/
def anyRow (instant : Int) : Option Nat :=
  (List.range rows.length).find? fun index => (rowAt rows index).eventTimestampNs = instant

/-- The row that the episode is anchored to. -/
def episodeStartRow (episode : EyesAppEpisode) : Option Nat :=
  episode.timeResumeNs.bind fun resumeNs =>
    resumeRow rows eligibleOpener resumeNs episode.appPackageName

/-- An anchored episode starts at its row, and is missing if it has no stop. -/
def startEpisode (output : MatcherOutput) (episode : EyesAppEpisode) : MatcherOutput :=
  match episodeStartRow rows eligibleOpener episode with
  | none => output
  | some startIndex =>
      let output := { output with startIndices := output.startIndices ++ [startIndex] }
      if episode.timeStopNs.isNone then
        { output with
          missingIndices := output.missingIndices ++ [startIndex]
          missingReasons := output.missingReasons ++ [eyesCloseReason episode.endInference] }
      else output

/-- The row that a fragment is attributed to: the earliest that an episode of its chunk is anchored
to. A chunk index past the list, where the source would panic, has none. -/
def fragmentStartRow (segmentation : EyesSegmentation) (fragment : EyesFinalAppUsage) :
    Option Nat :=
  (segmentation.appUsageChunks[fragment.chunkIndex]?).bind fun chunk =>
    (chunk.episodeIndices.filterMap fun index =>
      (segmentation.episodes[index]?).bind (episodeStartRow rows eligibleOpener)).min?

/-- A fragment with a row is credited to it. -/
def creditFragment (segmentation : EyesSegmentation) (output : MatcherOutput)
    (fragment : EyesFinalAppUsage) : MatcherOutput :=
  match fragmentStartRow rows eligibleOpener segmentation fragment with
  | none => output
  | some startIndex =>
      let stopIndex := ((anyRow rows fragment.endNs).filter fun index => startIndex ≤ index).getD
        startIndex
      { output with
        stopStartIndices := output.stopStartIndices ++ [startIndex]
        stopEventIndices := output.stopEventIndices ++ [stopIndex]
        stopReasons := output.stopReasons ++ [.eyesDeviceStateBoundary]
        startTimestampsNs := output.startTimestampsNs ++ [some fragment.startNs]
        stopTimestampsNs := output.stopTimestampsNs ++ [some fragment.endNs] }

/-- Starts are listed once each, and a start that was credited is not missing. -/
def settleStarts (order : MissSort) (output : MatcherOutput) : MatcherOutput :=
  let misses := (output.missingIndices.zip output.missingReasons).filter fun miss =>
    miss.1 ∉ output.stopStartIndices
  let misses := (order.sort misses).destutter fun a b => a.1 ≠ b.1
  { output with
    startIndices := (output.startIndices.insertionSort (· ≤ ·)).destutter (· ≠ ·)
    missingIndices := misses.map Prod.fst
    missingReasons := misses.map Prod.snd }

/-- The segmentation of the rows. -/
def segmentRows (proximityIntervalNs : Int) : EyesSegmentation :=
  segmentEyesComplement (rows.map Row.eyesEvent) (productionOptions proximityIntervalNs)

/-- `eyes_complement_episodes`, without the evidence that only receipts read. -/
def eyesComplementEpisodes (order : MissSort) (proximityIntervalNs : Int) : MatcherOutput :=
  let segmentation := segmentRows rows proximityIntervalNs
  let output := segmentation.episodes.foldl (startEpisode rows eligibleOpener) {}
  settleStarts order <|
    (creditedFinalAppUsage segmentation).foldl (creditFragment rows eligibleOpener segmentation)
      output

end Rows

/-! ## The two loops -/

variable {rows : List Row} {eligibleOpener : List Bool} {segmentation : EyesSegmentation}

/-- The fragments with their rows, those without a row left out. -/
def credits (rows : List Row) (eligibleOpener : List Bool) (segmentation : EyesSegmentation)
    (fragments : List EyesFinalAppUsage) : List (Nat × EyesFinalAppUsage) :=
  fragments.filterMap fun fragment =>
    (fragmentStartRow rows eligibleOpener segmentation fragment).map fun start => (start, fragment)

/-- The first loop writes no stops, and as many reasons as misses. -/
structure OnlyStarts (output : MatcherOutput) : Prop where
  stopStarts : output.stopStartIndices = []
  stopEvents : output.stopEventIndices = []
  stopReasons : output.stopReasons = []
  starts : output.startTimestampsNs = []
  stops : output.stopTimestampsNs = []

theorem OnlyStarts.startEpisode {output : MatcherOutput} (h : OnlyStarts output)
    (episode : EyesAppEpisode) :
    OnlyStarts (startEpisode rows eligibleOpener output episode) := by
  unfold Pipeline.startEpisode
  split
  · exact h
  · dsimp only
    split
    · exact ⟨h.stopStarts, h.stopEvents, h.stopReasons, h.starts, h.stops⟩
    · exact ⟨h.stopStarts, h.stopEvents, h.stopReasons, h.starts, h.stops⟩

theorem OnlyStarts.foldl {output : MatcherOutput} (h : OnlyStarts output)
    (episodes : List EyesAppEpisode) :
    OnlyStarts (episodes.foldl (Pipeline.startEpisode rows eligibleOpener) output) := by
  induction episodes generalizing output with
  | nil => exact h
  | cons episode rest ih => exact ih (h.startEpisode episode)

/-- The output writes the stops of the credits, in parallel. -/
structure Writes (output : MatcherOutput) (written : List (Nat × EyesFinalAppUsage)) : Prop where
  stopStarts : output.stopStartIndices = written.map Prod.fst
  starts : output.startTimestampsNs = written.map fun credit => some credit.2.startNs
  stops : output.stopTimestampsNs = written.map fun credit => some credit.2.endNs
  stopEvents : output.stopEventIndices.length = written.length
  stopReasons : output.stopReasons.length = written.length

theorem OnlyStarts.writes {output : MatcherOutput} (h : OnlyStarts output) : Writes output [] :=
  ⟨h.stopStarts, h.starts, h.stops, by rw [h.stopEvents]; rfl, by rw [h.stopReasons]; rfl⟩

theorem Writes.creditFragment {output : MatcherOutput} {written : List (Nat × EyesFinalAppUsage)}
    (h : Writes output written) (fragment : EyesFinalAppUsage) :
    Writes (creditFragment rows eligibleOpener segmentation output fragment)
      (written ++ credits rows eligibleOpener segmentation [fragment]) := by
  unfold Pipeline.creditFragment credits
  cases hrow : fragmentStartRow rows eligibleOpener segmentation fragment with
  | none =>
      rw [List.filterMap_cons, hrow]
      simpa using h
  | some start =>
      rw [List.filterMap_cons, hrow]
      dsimp only [Option.map_some, List.filterMap_nil]
      refine ⟨?_, ?_, ?_, ?_, ?_⟩
      · rw [h.stopStarts, List.map_append]
        rfl
      · rw [h.starts, List.map_append]
        rfl
      · rw [h.stops, List.map_append]
        rfl
      · rw [List.length_append, List.length_append, h.stopEvents]
        rfl
      · rw [List.length_append, List.length_append, h.stopReasons]
        rfl

theorem Writes.foldl {output : MatcherOutput} {written : List (Nat × EyesFinalAppUsage)}
    (h : Writes output written) (fragments : List EyesFinalAppUsage) :
    Writes (fragments.foldl (Pipeline.creditFragment rows eligibleOpener segmentation) output)
      (written ++ credits rows eligibleOpener segmentation fragments) := by
  induction fragments generalizing output written with
  | nil =>
      show Writes output (written ++ [])
      rwa [List.append_nil]
  | cons fragment rest ih =>
      have happend : credits rows eligibleOpener segmentation (fragment :: rest) =
          credits rows eligibleOpener segmentation [fragment] ++
            credits rows eligibleOpener segmentation rest := by
        rw [credits, ← List.singleton_append, List.filterMap_append]
        rfl
      rw [happend, ← List.append_assoc]
      exact ih (h.creditFragment fragment)

/-- Settling the starts leaves the stops alone. -/
theorem Writes.settleStarts {output : MatcherOutput} {written : List (Nat × EyesFinalAppUsage)}
    (h : Writes output written) (order : MissSort) :
    Writes (settleStarts order output) written :=
  ⟨h.stopStarts, h.starts, h.stops, h.stopEvents, h.stopReasons⟩

/-- What is missing after the settling was not credited. -/
theorem not_credited_of_missing {order : MissSort} {output : MatcherOutput} {start : Nat}
    (h : start ∈ (settleStarts order output).missingIndices) : start ∉ output.stopStartIndices := by
  obtain ⟨miss, hmiss, rfl⟩ := List.mem_map.mp h
  have hsorted := (List.destutter_sublist _ _).subset hmiss
  have hkept := ((order.perm _).subset hsorted)
  exact of_decide_eq_true (List.mem_filter.mp hkept).2

/-! ## Attribution -/

/-- The row may open an episode of the package at the instant. -/
structure ResumeRow (rows : List Row) (eligibleOpener : List Bool) (resumeNs : Int)
    (package : String) (index : Nat) : Prop where
  inside : index < rows.length
  eligible : opensAt eligibleOpener index = true
  instant : (rowAt rows index).eventTimestampNs = resumeNs
  package : (rowAt rows index).appPackageName = package

theorem isResumeRow_iff {resumeNs : Int} {package : String} {index : Nat} :
    index < rows.length ∧ isResumeRow rows eligibleOpener resumeNs package index = true ↔
      ResumeRow rows eligibleOpener resumeNs package index := by
  unfold isResumeRow
  rw [Bool.and_eq_true, Bool.and_eq_true, decide_eq_true_eq, decide_eq_true_eq, and_assoc]
  exact ⟨fun ⟨hinside, heligible, hinstant, hpackage⟩ => ⟨hinside, heligible, hinstant, hpackage⟩,
    fun h => ⟨h.inside, h.eligible, h.instant, h.package⟩⟩

theorem resumeRow_eq_some {resumeNs : Int} {package : String} {index : Nat}
    (h : resumeRow rows eligibleOpener resumeNs package = some index) :
    ResumeRow rows eligibleOpener resumeNs package index :=
  isResumeRow_iff.mp ⟨List.mem_range.mp (List.mem_of_find?_eq_some h), List.find?_some h⟩

theorem resumeRow_isSome {resumeNs : Int} {package : String} {index : Nat}
    (h : ResumeRow rows eligibleOpener resumeNs package index) :
    (resumeRow rows eligibleOpener resumeNs package).isSome = true := by
  obtain ⟨hinside, hrow⟩ := isResumeRow_iff.mpr h
  exact List.find?_isSome.mpr ⟨index, List.mem_range.mpr hinside, hrow⟩

/-- The row opened an episode that is merged into the fragment's chunk. -/
def Anchors (rows : List Row) (eligibleOpener : List Bool) (segmentation : EyesSegmentation)
    (fragment : EyesFinalAppUsage) (index : Nat) : Prop :=
  ∃ chunk i episode resume, segmentation.appUsageChunks[fragment.chunkIndex]? = some chunk ∧
    i ∈ chunk.episodeIndices ∧ segmentation.episodes[i]? = some episode ∧
    episode.timeResumeNs = some resume ∧
    ResumeRow rows eligibleOpener resume episode.appPackageName index

/-- Some row opened an episode that is merged into the fragment's chunk. -/
def Anchored (rows : List Row) (eligibleOpener : List Bool) (segmentation : EyesSegmentation)
    (fragment : EyesFinalAppUsage) : Prop :=
  ∃ index, Anchors rows eligibleOpener segmentation fragment index

theorem anchors_of_fragmentStartRow {fragment : EyesFinalAppUsage} {index : Nat}
    (h : fragmentStartRow rows eligibleOpener segmentation fragment = some index) :
    Anchors rows eligibleOpener segmentation fragment index := by
  obtain ⟨chunk, hchunk, hmin⟩ := Option.bind_eq_some_iff.mp h
  obtain ⟨i, hi, hrow⟩ := List.mem_filterMap.mp (List.min?_mem hmin)
  obtain ⟨episode, hepisode, hstart⟩ := Option.bind_eq_some_iff.mp hrow
  obtain ⟨resume, hresume, hindex⟩ := Option.bind_eq_some_iff.mp hstart
  exact ⟨chunk, i, episode, resume, hchunk, hi, hepisode, hresume, resumeRow_eq_some hindex⟩

/-- A fragment has a row exactly if some row may have opened an episode of its chunk. -/
theorem fragmentStartRow_isSome_iff {fragment : EyesFinalAppUsage} :
    (fragmentStartRow rows eligibleOpener segmentation fragment).isSome = true ↔
      Anchored rows eligibleOpener segmentation fragment := by
  constructor
  · intro h
    obtain ⟨index, hindex⟩ := Option.isSome_iff_exists.mp h
    exact ⟨index, anchors_of_fragmentStartRow hindex⟩
  · rintro ⟨index, chunk, i, episode, resume, hchunk, hi, hepisode, hresume, hrow⟩
    obtain ⟨first, hfirst⟩ := Option.isSome_iff_exists.mp (resumeRow_isSome hrow)
    have hmem : first ∈ chunk.episodeIndices.filterMap fun index =>
        (segmentation.episodes[index]?).bind (episodeStartRow rows eligibleOpener) := by
      refine List.mem_filterMap.mpr ⟨i, hi, ?_⟩
      rw [hepisode, Option.bind_some, episodeStartRow, hresume, Option.bind_some, hfirst]
    rw [fragmentStartRow, hchunk, Option.bind_some]
    exact List.isSome_min?_of_mem hmem

instance : DecidablePred (Anchored rows eligibleOpener segmentation) := fun _ =>
  decidable_of_iff _ fragmentStartRow_isSome_iff

/-- The fragments with a row, in order. -/
theorem map_snd_credits (fragments : List EyesFinalAppUsage) :
    (credits rows eligibleOpener segmentation fragments).map Prod.snd =
      fragments.filter fun fragment => Anchored rows eligibleOpener segmentation fragment := by
  induction fragments with
  | nil => rfl
  | cons fragment rest ih =>
      have hrow : (fragmentStartRow rows eligibleOpener segmentation fragment).isSome = true ↔
          Anchored rows eligibleOpener segmentation fragment := fragmentStartRow_isSome_iff
      rw [credits, List.filterMap_cons, List.filter_cons]
      cases hstart : fragmentStartRow rows eligibleOpener segmentation fragment with
      | none =>
          have hnone : ¬ Anchored rows eligibleOpener segmentation fragment := by
            rw [← hrow, hstart]
            exact Bool.false_ne_true
          rw [if_neg (mt of_decide_eq_true hnone)]
          exact ih
      | some start =>
          have hsome : Anchored rows eligibleOpener segmentation fragment := by
            rw [← hrow, hstart]
            rfl
          rw [if_pos (decide_eq_true hsome), ← ih]
          rfl

/-- Two fragments with one row are of one chunk: the row's instant is that of a resume inside it. -/
theorem chunkIndex_eq_of_row (hchunks : segmentation.appUsageChunks.Pairwise ChunksApart)
    (horigins : ∀ chunk ∈ segmentation.appUsageChunks, ChunkOrigin segmentation.episodes chunk)
    {first second : EyesFinalAppUsage} {index : Nat}
    (hfirst : Anchors rows eligibleOpener segmentation first index)
    (hsecond : Anchors rows eligibleOpener segmentation second index)
    (hlength : ∀ row ∈ [first, second], ∀ chunk,
      segmentation.appUsageChunks[row.chunkIndex]? = some chunk → chunk.startNs < chunk.endNs) :
    first.chunkIndex = second.chunkIndex := by
  have hinside : ∀ row ∈ [first, second], Anchors rows eligibleOpener segmentation row index →
      ∃ chunk, segmentation.appUsageChunks[row.chunkIndex]? = some chunk ∧
        (rowAt rows index).appPackageName = chunk.appPackageName ∧
        chunk.startNs ≤ (rowAt rows index).eventTimestampNs ∧
        (rowAt rows index).eventTimestampNs ≤ chunk.endNs := by
    rintro row hrow ⟨chunk, i, episode, resume, hchunk, hi, hepisode, hresume, hanchor⟩
    obtain ⟨episode', resume', hepisode', hpackage, hresume', hlower, hupper⟩ :=
      (horigins chunk (List.mem_of_getElem? hchunk)).resumed i hi
    obtain rfl := Option.some.inj (hepisode.symm.trans hepisode')
    obtain rfl := Option.some.inj (hresume.symm.trans hresume')
    rw [max_eq_right (hlength row hrow chunk hchunk).le] at hupper
    exact ⟨chunk, hchunk, hanchor.package.trans hpackage, by rwa [hanchor.instant],
      by rwa [hanchor.instant]⟩
  obtain ⟨chunk, hchunk, hpackage, hin⟩ := hinside first List.mem_cons_self hfirst
  obtain ⟨chunk', hchunk', hpackage', hin'⟩ :=
    hinside second (List.mem_cons_of_mem _ List.mem_cons_self) hsecond
  exact ChunkOrigin.index_eq hchunks hchunk hchunk' (hpackage.symm.trans hpackage') hin hin'

/-- The credits of two fragments with one row do not overlap. -/
theorem credits_pairwise (hchunks : segmentation.appUsageChunks.Pairwise ChunksApart)
    (horigins : ∀ chunk ∈ segmentation.appUsageChunks, ChunkOrigin segmentation.episodes chunk)
    {fragments : List EyesFinalAppUsage}
    (hlength : ∀ row ∈ fragments, ∀ chunk,
      segmentation.appUsageChunks[row.chunkIndex]? = some chunk → chunk.startNs < chunk.endNs)
    (hsucceeds : fragments.Pairwise Succeeds) :
    (credits rows eligibleOpener segmentation fragments).Pairwise fun a b =>
      a.1 = b.1 → a.2.endNs ≤ b.2.startNs := by
  refine List.pairwise_filterMap.mpr (hsucceeds.imp_of_mem fun hfirst hsecond hnext => ?_)
  intro a ha b hb hsame
  obtain ⟨start, hstart, rfl⟩ := Option.map_eq_some_iff.mp ha
  obtain ⟨start', hstart', rfl⟩ := Option.map_eq_some_iff.mp hb
  obtain rfl : start = start' := hsame
  refine hnext (chunkIndex_eq_of_row hchunks horigins (anchors_of_fragmentStartRow hstart)
    (anchors_of_fragmentStartRow hstart') fun row hrow => hlength row ?_)
  rcases List.mem_cons.mp hrow with rfl | hrow
  · exact hfirst
  · exact List.mem_singleton.mp hrow ▸ hsecond

/-- The row of a credit is an eligible opener of its package. -/
theorem opener_of_mem_credits (horigins : ∀ chunk ∈ segmentation.appUsageChunks,
      ChunkOrigin segmentation.episodes chunk)
    {fragments : List EyesFinalAppUsage} (hnames : ∀ row ∈ fragments, ∀ chunk,
      segmentation.appUsageChunks[row.chunkIndex]? = some chunk →
        row.appPackageName = chunk.appPackageName) :
    ∀ credit ∈ credits rows eligibleOpener segmentation fragments,
      credit.1 < rows.length ∧ opensAt eligibleOpener credit.1 = true ∧
        (rowAt rows credit.1).appPackageName = credit.2.appPackageName := by
  intro credit hcredit
  obtain ⟨fragment, hfragment, hrow⟩ := List.mem_filterMap.mp hcredit
  obtain ⟨start, hstart, rfl⟩ := Option.map_eq_some_iff.mp hrow
  obtain ⟨chunk, i, episode, resume, hchunk, hi, hepisode, -, hanchor⟩ :=
    anchors_of_fragmentStartRow hstart
  obtain ⟨episode', -, hepisode', hpackage, -⟩ :=
    (horigins chunk (List.mem_of_getElem? hchunk)).resumed i hi
  obtain rfl := Option.some.inj (hepisode.symm.trans hepisode')
  refine ⟨hanchor.inside, hanchor.eligible, hanchor.package.trans ?_⟩
  exact hpackage.trans (hnames fragment hfragment chunk hchunk).symm

/-- Every fragment has a row if every row that is read as a resume may open. -/
theorem anchored_of_eligible {proximityIntervalNs : Int} (heligible : ∀ index < rows.length,
      (rowAt rows index).eyesEvent.signal = .activityResumed → opensAt eligibleOpener index = true)
    {fragment : EyesFinalAppUsage}
    (hfragment : fragment ∈ (segmentRows rows proximityIntervalNs).finalAppUsage) :
    Anchored rows eligibleOpener (segmentRows rows proximityIntervalNs) fragment := by
  obtain ⟨-, -, hepisodes, hchunks, husage⟩ := segmentEyesComplement_parts
    (rows.map Row.eyesEvent) (productionOptions proximityIntervalNs)
  rw [segmentRows, husage] at hfragment
  obtain ⟨chunk, hchunk, -⟩ := (splitAndTagAppUsage_origin _ _ _).1 fragment hfragment
  have hmem := List.mem_of_getElem? hchunk
  rw [hchunks] at hmem
  have horigin := (mergeAppChunks_spec _).1 chunk hmem
  obtain ⟨i, hi⟩ := List.exists_mem_of_ne_nil _ horigin.nonempty
  obtain ⟨episode, resume, hepisode, hpackage, hresume, -⟩ := horigin.resumed i hi
  have hreconstructed := List.mem_of_getElem? hepisode
  rw [hepisodes] at hreconstructed
  -- the resume is that of an event, and the event is that of a row
  obtain ⟨entry, hentry, hsignal, howner, hinstant⟩ :=
    exists_resumed_event (orderedSignals_sorted _) hreconstructed hresume
  obtain ⟨event, hevent, rfl⟩ := mem_orderedSignals.mp hentry
  obtain ⟨row, hrow, rfl⟩ := List.mem_map.mp hevent
  obtain ⟨index, hindex, rfl⟩ := List.getElem_of_mem hrow
  have hread := rowAt_eq hindex
  exact ⟨index, chunk, i, episode, resume, hchunk, hi, hepisode, hresume, hindex,
    heligible index hindex (by rw [hread]; exact hsignal), by rw [hread]; exact hinstant,
    by rw [hread]; exact howner⟩

/-- The intervals are the ACTIVE fragments whose chunk has an eligible opener, and so all of them if
every row read as a resume is eligible; each is attributed to an eligible opener of its package, the
intervals of one row do not overlap, no credited start is missing, and the arrays are parallel. -/
theorem eyes_complement_episodes_credits (rows : List Row) (eligibleOpener : List Bool)
    (order : MissSort) (proximityIntervalNs : Int) :
    let segmentation := segmentRows rows proximityIntervalNs
    let output := eyesComplementEpisodes rows eligibleOpener order proximityIntervalNs
    (∃ written : List (Nat × EyesFinalAppUsage), Writes output written ∧
      written.map Prod.snd = (creditedFinalAppUsage segmentation).filter
        (fun fragment => Anchored rows eligibleOpener segmentation fragment) ∧
      ((∀ index < rows.length, (rowAt rows index).eyesEvent.signal = .activityResumed →
          opensAt eligibleOpener index = true) →
        written.map Prod.snd = creditedFinalAppUsage segmentation) ∧
      written.Pairwise (fun a b => a.1 = b.1 → a.2.endNs ≤ b.2.startNs) ∧
      ∀ credit ∈ written, credit.1 < rows.length ∧ opensAt eligibleOpener credit.1 = true ∧
        (rowAt rows credit.1).appPackageName = credit.2.appPackageName) ∧
    (∀ start ∈ output.stopStartIndices, start ∉ output.missingIndices) ∧
    output.missingReasons.length = output.missingIndices.length := by
  intro segmentation output
  obtain ⟨-, -, -, hchunks, husage⟩ : _ ∧ _ ∧ _ ∧
      segmentation.appUsageChunks = mergeAppChunks segmentation.episodes ∧
      segmentation.finalAppUsage = splitAndTagAppUsage segmentation.appUsageChunks
        segmentation.blocks (productionOptions proximityIntervalNs) :=
    segmentEyesComplement_parts (rows.map Row.eyesEvent) (productionOptions proximityIntervalNs)
  obtain ⟨horigins, hapart⟩ := mergeAppChunks_spec segmentation.episodes
  rw [← hchunks] at horigins hapart
  obtain ⟨hfragments, hsucceeds⟩ := splitAndTagAppUsage_origin segmentation.appUsageChunks
    segmentation.blocks (productionOptions proximityIntervalNs)
  rw [← husage] at hfragments hsucceeds
  have horigin : ∀ row ∈ creditedFinalAppUsage segmentation, ∀ chunk,
      segmentation.appUsageChunks[row.chunkIndex]? = some chunk →
        FragmentOrigin (chunk, row.chunkIndex) row := by
    intro row hrow chunk hchunk
    obtain ⟨chunk', hchunk', h⟩ := hfragments row (List.mem_of_mem_filter hrow)
    exact Option.some.inj (hchunk'.symm.trans hchunk) ▸ h
  have hwrites : Writes output (credits rows eligibleOpener segmentation
      (creditedFinalAppUsage segmentation)) := by
    have hstarts : OnlyStarts (segmentation.episodes.foldl (startEpisode rows eligibleOpener) {}) :=
      OnlyStarts.foldl ⟨rfl, rfl, rfl, rfl, rfl⟩ _
    exact (hstarts.writes.foldl _).settleStarts order
  refine ⟨⟨_, hwrites, map_snd_credits _, fun heligible => ?_, ?_, ?_⟩, fun start hstart hmissing =>
    not_credited_of_missing hmissing hstart, ?_⟩
  · rw [map_snd_credits, List.filter_eq_self]
    exact fun fragment hfragment =>
      decide_eq_true (anchored_of_eligible heligible (List.mem_of_mem_filter hfragment))
  · refine credits_pairwise hapart horigins (fun row hrow chunk hchunk => ?_)
      (hsucceeds.filter _)
    have h := horigin row hrow chunk hchunk
    exact h.lower.trans_lt (h.forward.trans_le h.upper)
  · exact opener_of_mem_credits horigins fun row hrow chunk hchunk =>
      (horigin row hrow chunk hchunk).appName
  · show (List.map Prod.snd _).length = (List.map Prod.fst _).length
    rw [List.length_map, List.length_map]

/-- Rows of one participant, the first with an interaction type that is another spelling of a
resume, as a remapping of the source's types can give. -/
def respelledRows : List Row :=
  [{ participantId := "p", interactionType := "Move to Foreground", appPackageName := "app",
     eventTimestampNs := 0 },
    { participantId := "p", interactionType := activityPaused, appPackageName := "app",
      eventTimestampNs := 60000000000 },
    { participantId := "p", interactionType := activityResumed, appPackageName := "other",
      eventTimestampNs := 120000000000 },
    { participantId := "p", interactionType := activityPaused, appPackageName := "other",
      eventTimestampNs := 180000000000 }]

/-- The fragment under the respelled resume is ACTIVE, but the row is no eligible opener, and its
time is not credited. -/
theorem eyes_complement_episodes_respelled :
    ¬ ∀ (rows : List Row) (proximityIntervalNs : Int),
      let output := eyesComplementEpisodes rows
        (rows.map fun row => row.interactionType = activityResumed) .stable proximityIntervalNs
      (output.startTimestampsNs.zip output.stopTimestampsNs).Perm
        ((creditedFinalAppUsage (segmentRows rows proximityIntervalNs)).map fun fragment =>
          (some fragment.startNs, some fragment.endNs)) := by
  intro h
  have hlength := (h respelledRows 2000000000).length_eq
  revert hlength
  decide +kernel

end Chronicle.Pipeline
