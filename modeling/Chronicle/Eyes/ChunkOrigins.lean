import Chronicle.Eyes.UsageChunks

/-!
# Where the fragments come from

A chunk is made of episodes of its package that were resumed inside it, and two chunks of one
package are apart; a fragment lies in its chunk, and two fragments of one chunk do not overlap. So
the instant of a resume belongs to at most one chunk that has fragments.
-/

namespace Chronicle.Eyes

open Chronicle.Library Chronicle.Library.Machine Chronicle.Library.StableSort
  Chronicle.Library.Tiling

variable {episodes : List EyesAppEpisode} {package : String} {intervals : List AppInterval}
  {current : Option EyesAppUsageChunk}

/-! ## Chunks -/

/-- The interval begins at the resume of its episode. -/
def IntervalOrigin (episodes : List EyesAppEpisode) (package : String) (interval : AppInterval) :
    Prop :=
  ∃ episode, episodes[interval.episodeIndex]? = some episode ∧
    episode.appPackageName = package ∧ episode.timeResumeNs = some interval.startNs

/-- The chunk is made of episodes of its package, each resumed inside it. -/
structure ChunkOrigin (episodes : List EyesAppEpisode) (chunk : EyesAppUsageChunk) : Prop where
  nonempty : chunk.episodeIndices ≠ []
  resumed : ∀ i ∈ chunk.episodeIndices, ∃ episode resume, episodes[i]? = some episode ∧
    episode.appPackageName = chunk.appPackageName ∧ episode.timeResumeNs = some resume ∧
    chunk.startNs ≤ resume ∧ resume ≤ max chunk.startNs chunk.endNs

/-- Two chunks of one package do not touch. -/
def ChunksApart (first second : EyesAppUsageChunk) : Prop :=
  first.appPackageName = second.appPackageName →
    first.endNs < second.startNs ∨ second.endNs < first.startNs

theorem ChunksApart.symm {first second : EyesAppUsageChunk} (h : ChunksApart first second) :
    ChunksApart second first :=
  fun hpackage => (h hpackage.symm).symm

theorem ChunkOrigin.opened {interval : AppInterval}
    (h : IntervalOrigin episodes package interval) :
    ChunkOrigin episodes ⟨package, interval.startNs, interval.endNs, [interval.episodeIndex]⟩ := by
  obtain ⟨episode, hepisode, hpackage, hresume⟩ := h
  refine ⟨List.cons_ne_nil _ _, fun i hi => ?_⟩
  rw [List.mem_singleton.mp hi]
  exact ⟨episode, _, hepisode, hpackage, hresume, le_rfl, le_max_left _ _⟩

/-- An interval that begins before the chunk has ended is merged into it. -/
theorem ChunkOrigin.merged {chunk : EyesAppUsageChunk} {interval : AppInterval}
    (h : ChunkOrigin episodes chunk) (hinterval : IntervalOrigin episodes package interval)
    (hpackage : chunk.appPackageName = package) (hstart : chunk.startNs ≤ interval.startNs)
    (hoverlap : interval.startNs ≤ chunk.endNs) :
    ChunkOrigin episodes
      { chunk with
        endNs := max chunk.endNs interval.endNs
        episodeIndices := chunk.episodeIndices ++ [interval.episodeIndex] } := by
  refine ⟨List.append_ne_nil_of_right_ne_nil _ (List.cons_ne_nil _ _), fun i hi => ?_⟩
  rcases List.mem_append.mp hi with hold | hnew
  · obtain ⟨episode, resume, hepisode, howner, hresume, hlower, hupper⟩ := h.resumed i hold
    refine ⟨episode, resume, hepisode, howner, hresume, hlower, hupper.trans ?_⟩
    exact max_le_max le_rfl (le_max_left _ _)
  · obtain ⟨episode, hepisode, howner, hresume⟩ := hinterval
    rw [List.mem_singleton.mp hnew]
    refine ⟨episode, _, hepisode, howner.trans hpackage.symm, hresume, hstart, ?_⟩
    exact (hoverlap.trans (le_max_left _ _)).trans (le_max_right _ _)

/-- The chunks of one package: where they come from, how they follow one another, and that none
begins before the first interval or the open chunk. -/
theorem mergeIntervals_spec (hintervals : ∀ interval ∈ intervals,
      IntervalOrigin episodes package interval)
    (hsorted : intervals.Pairwise fun a b => a.startNs ≤ b.startNs)
    (hcurrent : ∀ chunk ∈ current, ChunkOrigin episodes chunk ∧ chunk.appPackageName = package ∧
      ∀ interval ∈ intervals, chunk.startNs ≤ interval.startNs) :
    (∀ chunk ∈ mergeIntervals package intervals current,
        ChunkOrigin episodes chunk ∧ chunk.appPackageName = package) ∧
      (mergeIntervals package intervals current).Pairwise (fun a b => a.endNs < b.startNs) ∧
      ∀ bound, (∀ interval ∈ intervals, bound ≤ interval.startNs) →
        (∀ chunk ∈ current, bound ≤ chunk.startNs) →
        ∀ chunk ∈ mergeIntervals package intervals current, bound ≤ chunk.startNs := by
  fun_induction mergeIntervals package intervals current with
  | case1 current =>
      refine ⟨fun chunk hchunk => ?_, ?_, fun bound _ hbound chunk hchunk => ?_⟩
      · obtain ⟨horigin, hpackage, -⟩ := hcurrent chunk (by simpa using hchunk)
        exact ⟨horigin, hpackage⟩
      · cases current with
        | none => exact List.Pairwise.nil
        | some chunk => exact List.pairwise_singleton _ chunk
      · exact hbound chunk (by simpa using hchunk)
  | case2 interval rest chunk hoverlap ih =>
      obtain ⟨hinterval, hrest⟩ := List.forall_mem_cons.mp hintervals
      obtain ⟨-, hlater⟩ := List.pairwise_cons.mp hsorted
      obtain ⟨horigin, hpackage, hbefore⟩ := hcurrent chunk rfl
      obtain ⟨hfirst, hbehind⟩ := List.forall_mem_cons.mp hbefore
      obtain ⟨horigins, hapart, hbounds⟩ := ih hrest hlater fun merged hmerged => by
        obtain rfl := Option.some.inj hmerged
        exact ⟨horigin.merged hinterval hpackage hfirst hoverlap, hpackage, hbehind⟩
      refine ⟨horigins, hapart, fun bound hbound hchunk => ?_⟩
      refine hbounds bound (fun i hi => hbound i (List.mem_cons_of_mem _ hi))
        fun merged hmerged => ?_
      obtain rfl := Option.some.inj hmerged
      exact hchunk chunk rfl
  | case3 interval rest chunk hapart ih =>
      obtain ⟨hinterval, hrest⟩ := List.forall_mem_cons.mp hintervals
      obtain ⟨hnext, hlater⟩ := List.pairwise_cons.mp hsorted
      obtain ⟨horigin, hpackage, -⟩ := hcurrent chunk rfl
      obtain ⟨horigins, hpairwise, hbounds⟩ := ih hrest hlater fun opened hopened => by
        obtain rfl := Option.some.inj hopened
        exact ⟨ChunkOrigin.opened hinterval, rfl, hnext⟩
      -- the chunks that follow begin no earlier than this interval
      have hbehind := hbounds interval.startNs hnext fun opened hopened => by
        obtain rfl := Option.some.inj hopened
        exact le_rfl
      refine ⟨List.forall_mem_cons.mpr ⟨⟨horigin, hpackage⟩, horigins⟩,
        List.pairwise_cons.mpr ⟨fun later hmem => ?_, hpairwise⟩, fun bound hbound hchunk => ?_⟩
      · exact (not_le.mp hapart).trans_le (hbehind later hmem)
      · refine List.forall_mem_cons.mpr ⟨hchunk chunk rfl, fun later hmem => ?_⟩
        exact (hbound interval List.mem_cons_self).trans (hbehind later hmem)
  | case4 interval rest ih =>
      obtain ⟨hinterval, hrest⟩ := List.forall_mem_cons.mp hintervals
      obtain ⟨hnext, hlater⟩ := List.pairwise_cons.mp hsorted
      obtain ⟨horigins, hpairwise, hbounds⟩ := ih hrest hlater fun opened hopened => by
        obtain rfl := Option.some.inj hopened
        exact ⟨ChunkOrigin.opened hinterval, rfl, hnext⟩
      refine ⟨horigins, hpairwise, fun bound hbound _ => ?_⟩
      refine hbounds bound (fun i hi => hbound i (List.mem_cons_of_mem _ hi))
        fun opened hopened => ?_
      obtain rfl := Option.some.inj hopened
      exact hbound interval List.mem_cons_self

theorem intervalOrigin_appIntervals {interval : AppInterval}
    (h : interval ∈ appIntervals episodes) :
    IntervalOrigin episodes interval.appPackageName interval := by
  obtain ⟨⟨episode, index⟩, hepisode, hspan⟩ := List.mem_filterMap.mp h
  obtain ⟨⟨start, stop⟩, hinterval, rfl⟩ := Option.map_eq_some_iff.mp hspan
  refine ⟨episode, (List.mem_zipIdx_iff_getElem?.mp hepisode), rfl, ?_⟩
  unfold EyesAppEpisode.interval at hinterval
  split at hinterval
  · rename_i resume stop' hresume _
    obtain ⟨rfl, -⟩ := Prod.mk.inj (Option.some.inj hinterval)
    exact hresume
  · cases hinterval

/-- Every chunk is made of resumed episodes of its package, and those of one package are apart. -/
theorem mergeAppChunks_spec (episodes : List EyesAppEpisode) :
    (∀ chunk ∈ mergeAppChunks episodes, ChunkOrigin episodes chunk) ∧
      (mergeAppChunks episodes).Pairwise ChunksApart := by
  let chunksOf := fun package => mergeIntervals package
    (sortByKey (fun interval => toLex (interval.startNs, interval.endNs))
      ((appIntervals episodes).filter fun interval => interval.appPackageName = package)) none
  have hpackage : ∀ package, (∀ chunk ∈ chunksOf package,
      ChunkOrigin episodes chunk ∧ chunk.appPackageName = package) ∧
      (chunksOf package).Pairwise fun a b => a.endNs < b.startNs := by
    intro package
    let key := fun interval : AppInterval => toLex (interval.startNs, interval.endNs)
    let own := (appIntervals episodes).filter fun interval => interval.appPackageName = package
    have hintervals : ∀ interval ∈ sortByKey key own, IntervalOrigin episodes package interval := by
      intro interval hinterval
      obtain ⟨hmem, howner⟩ := List.mem_filter.mp (mem_sortByKey.mp hinterval)
      exact of_decide_eq_true howner ▸ intervalOrigin_appIntervals hmem
    have hsorted : (sortByKey key own).Pairwise fun a b => a.startNs ≤ b.startNs := by
      refine (pairwise_sortByKey key own).imp fun h => ?_
      rcases Prod.Lex.toLex_le_toLex.mp h with h | h
      · exact h.le
      · exact h.1.le
    obtain ⟨horigins, hapart, -⟩ := mergeIntervals_spec hintervals hsorted
      fun chunk h => absurd h (Option.not_mem_none chunk)
    exact ⟨horigins, hapart⟩
  have hnodup : (intervalPackages (appIntervals episodes)).Nodup :=
    (perm_sortByKey id _).nodup_iff.mpr (List.nodup_dedup _)
  have happend : ((intervalPackages (appIntervals episodes)).flatMap chunksOf).Pairwise
      ChunksApart := by
    refine List.pairwise_flatMap.mpr ⟨fun package _ => ?_, hnodup.imp fun hne => ?_⟩
    · exact (hpackage package).2.imp fun h _ => Or.inl h
    · -- chunks of different packages need not be apart in time
      intro first hfirst second hsecond heq
      have hsame := ((hpackage _).1 first hfirst).2.symm.trans
        (heq.trans ((hpackage _).1 second hsecond).2)
      exact absurd hsame hne
  refine ⟨fun chunk hchunk => ?_, ?_⟩
  · simp only [mergeAppChunks, mem_sortByKey, List.mem_flatMap] at hchunk
    obtain ⟨package, -, hmem⟩ := hchunk
    exact ((hpackage package).1 chunk hmem).1
  · exact ((perm_sortByKey _ _).pairwise_iff ChunksApart.symm).mpr happend

/-- An instant at which episodes of two chunks of one package were resumed puts both in one chunk,
if both chunks have a length. -/
theorem ChunkOrigin.index_eq {chunks : List EyesAppUsageChunk}
    (hapart : chunks.Pairwise ChunksApart) {i j : Nat} {first second : EyesAppUsageChunk} (hfirst : chunks[i]? = some first)
    (hsecond : chunks[j]? = some second) (hpackage : first.appPackageName = second.appPackageName)
    {resume : Int} (hin : first.startNs ≤ resume ∧ resume ≤ first.endNs)
    (hin' : second.startNs ≤ resume ∧ resume ≤ second.endNs) : i = j := by
  have hnot : ¬ ChunksApart first second := fun h => by
    rcases h hpackage with hlt | hlt
    · exact absurd (hin.2.trans_lt (hlt.trans_le hin'.1)) (lt_irrefl resume)
    · exact absurd (hin'.2.trans_lt (hlt.trans_le hin.1)) (lt_irrefl resume)
  obtain ⟨hi, rfl⟩ := List.getElem?_eq_some_iff.mp hfirst
  obtain ⟨hj, rfl⟩ := List.getElem?_eq_some_iff.mp hsecond
  rcases Nat.lt_trichotomy i j with hlt | heq | hgt
  · exact absurd (List.pairwise_iff_getElem.mp hapart i j hi hj hlt) hnot
  · exact heq
  · exact absurd (List.pairwise_iff_getElem.mp hapart j i hj hi hgt).symm hnot

/-! ## Fragments -/

/-- The fragment lies in the chunk and names it. -/
structure FragmentOrigin (entry : EyesAppUsageChunk × Nat) (row : EyesFinalAppUsage) : Prop where
  index : row.chunkIndex = entry.2
  appName : row.appPackageName = entry.1.appPackageName
  lower : entry.1.startNs ≤ row.startNs
  forward : row.startNs < row.endNs
  upper : row.endNs ≤ entry.1.endNs

/-- Fragments of one chunk follow one another. -/
def Succeeds (first second : EyesFinalAppUsage) : Prop :=
  first.chunkIndex = second.chunkIndex → first.endNs ≤ second.startNs

theorem TaggedTiling.origin {timeline : List TimedBlock} {chunk : EyesAppUsageChunk}
    {chunkIndex : Nat} {part : List EyesFinalAppUsage}
    (h : TaggedTiling timeline chunk chunkIndex chunk.startNs part chunk.endNs) :
    (∀ row ∈ part, FragmentOrigin (chunk, chunkIndex) row) ∧ part.Pairwise Succeeds := by
  refine ⟨fun row hrow => ?_, h.tiles.pairwise_apart.imp (S := Succeeds) fun hle _ => hle⟩
  obtain ⟨hindex, hname⟩ := h.names row hrow
  obtain ⟨hlower, hforward, hupper⟩ := h.tiles.bounds hrow
  exact ⟨hindex, hname, hlower, hforward, hupper⟩

/-- The parts of distinct chunks, one after another. -/
theorem flatten_parts_origin {timeline : List TimedBlock}
    {indexed : List (EyesAppUsageChunk × Nat)} {parts : List (List EyesFinalAppUsage)}
    (hparts : List.Forall₂ (fun (chunk, chunkIndex) part =>
      (chunk.endNs ≤ chunk.startNs → part = []) ∧ (chunk.startNs < chunk.endNs →
        TaggedTiling timeline chunk chunkIndex chunk.startNs part chunk.endNs)) indexed parts)
    (hindices : indexed.Pairwise fun a b => a.2 ≠ b.2) :
    (∀ row ∈ parts.flatten, ∃ entry ∈ indexed, FragmentOrigin entry row) ∧
      parts.flatten.Pairwise Succeeds := by
  induction hparts with
  | nil => exact ⟨fun _ h => absurd h List.not_mem_nil, List.Pairwise.nil⟩
  | @cons entry part indexed parts hpart _ ih =>
      obtain ⟨hother, hrest⟩ := List.pairwise_cons.mp hindices
      obtain ⟨hlater, hlaterPairwise⟩ := ih hrest
      obtain ⟨hown, hownPairwise⟩ : (∀ row ∈ part, FragmentOrigin entry row) ∧
          part.Pairwise Succeeds := by
        rcases lt_or_ge entry.1.startNs entry.1.endNs with hlt | hge
        · exact (hpart.2 hlt).origin
        · rw [hpart.1 hge]
          exact ⟨fun _ h => absurd h List.not_mem_nil, List.Pairwise.nil⟩
      refine ⟨fun row hrow => ?_, List.pairwise_append.mpr
        ⟨hownPairwise, hlaterPairwise, fun first hfirst second hsecond hsame => ?_⟩⟩
      · rcases List.mem_append.mp hrow with hrow | hrow
        · exact ⟨entry, List.mem_cons_self, hown row hrow⟩
        · obtain ⟨entry', hentry', horigin⟩ := hlater row hrow
          exact ⟨entry', List.mem_cons_of_mem _ hentry', horigin⟩
      · -- fragments of two parts are of different chunks
        obtain ⟨entry', hentry', horigin⟩ := hlater second hsecond
        have hindex := ((hown first hfirst).index.symm.trans hsame).trans horigin.index
        exact absurd hindex (hother entry' hentry')

/-- Each fragment lies in its chunk, and those of one chunk follow one another. -/
theorem splitAndTagAppUsage_origin (chunks : List EyesAppUsageChunk) (blocks : List EyesBlock)
    (options : EyesOptions) :
    (∀ row ∈ splitAndTagAppUsage chunks blocks options, ∃ chunk,
        chunks[row.chunkIndex]? = some chunk ∧ FragmentOrigin (chunk, row.chunkIndex) row) ∧
      (splitAndTagAppUsage chunks blocks options).Pairwise Succeeds := by
  obtain ⟨parts, heq, hparts⟩ := exists_foldl_splitChunk
    (deviceTimeline blocks (secondsToNs options.fauBlockMinimumSeconds)) deviceTimeline_sorted
    deviceTimeline_positive chunks.zipIdx []
  have hflatten : splitAndTagAppUsage chunks blocks options = parts.flatten := by
    simpa [splitAndTagAppUsage] using heq
  have hindices : chunks.zipIdx.Pairwise fun a b => a.2 ≠ b.2 := by
    have hrange : (chunks.zipIdx.map Prod.snd).Pairwise (· ≠ ·) := by
      rw [List.zipIdx_map_snd]
      exact List.nodup_range'
    exact List.pairwise_map.mp hrange
  obtain ⟨horigins, hpairwise⟩ := flatten_parts_origin hparts hindices
  rw [hflatten]
  refine ⟨fun row hrow => ?_, hpairwise⟩
  obtain ⟨⟨chunk, chunkIndex⟩, hentry, horigin⟩ := horigins row hrow
  obtain rfl : row.chunkIndex = chunkIndex := horigin.index
  exact ⟨chunk, List.mem_zipIdx_iff_getElem?.mp hentry, horigin⟩

end Chronicle.Eyes
