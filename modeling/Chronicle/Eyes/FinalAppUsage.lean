import Chronicle.Library.StableSort
import Chronicle.Library.Tiling
import Chronicle.Eyes.Types

/-!
# Final app usage

`split_and_tag_app_usage` walks a cursor over each usage chunk and over the sorted device-state
timeline, and emits the chunk's fragments with the state that covered each. Pointwise, an instant
carries the state of the first block of the timeline that covers it.
-/

namespace Chronicle.Eyes

open Chronicle.Library Chronicle.Library.Machine Chronicle.Library.StableSort
  Chronicle.Library.Tiling

/-! ## The model -/

/-- A block of the device-state timeline. -/
structure TimedBlock where
  startNs : Int
  endNs : Int
  blockType : EyesBlockType
deriving DecidableEq, Repr

/-- The key the timeline is sorted by. -/
def TimedBlock.key (block : TimedBlock) : Int ×ₗ Int ×ₗ EyesBlockType :=
  toLex (block.startNs, toLex (block.endNs, block.blockType))

/-- Whether the block covers the instant. -/
def TimedBlock.covers (t : Int) (block : TimedBlock) : Bool := block.startNs ≤ t ∧ t < block.endNs

/-- The blocks the chunks are split against: the paired ones that are long enough, in order. -/
def deviceTimeline (blocks : List EyesBlock) (minimumNs : Int) : List TimedBlock :=
  sortByKey TimedBlock.key <| blocks.filterMap fun block =>
    (block.paired.filter fun (start, stop) => wrap64 (stop - start) ≥ minimumNs).map
      fun (start, stop) => ⟨start, stop, block.blockType⟩

section Chunk

variable (chunk : EyesAppUsageChunk) (chunkIndex : Nat)

/-- `push_fragment` -/
def pushFragment (rows : List EyesFinalAppUsage) (start stop : Int)
    (deviceStatus : EyesBlockType) : List EyesFinalAppUsage :=
  if stop > start then rows ++ [⟨chunk.appPackageName, chunkIndex, start, stop, deviceStatus⟩]
  else rows

/-- The loop over the timeline: the rows emitted so far and the cursor at its end. -/
def splitLoop : List TimedBlock → List EyesFinalAppUsage → Int → List EyesFinalAppUsage × Int
  | [], rows, cursor => (rows, cursor)
  | block :: rest, rows, cursor =>
      if cursor ≥ chunk.endNs ∨ block.startNs ≥ chunk.endNs then (rows, cursor)
      else if block.endNs ≤ cursor then splitLoop rest rows cursor
      else
        let (rows, cursor) :=
          if block.startNs > cursor then
            let boundary := min block.startNs chunk.endNs
            (pushFragment chunk chunkIndex rows cursor boundary .active, boundary)
          else (rows, cursor)
        let overlapEnd := min block.endNs chunk.endNs
        splitLoop rest (pushFragment chunk chunkIndex rows cursor overlapEnd block.blockType)
          (max cursor overlapEnd)

/-- The rows after one more chunk. -/
def splitChunk (timeline : List TimedBlock) (rows : List EyesFinalAppUsage) :
    List EyesFinalAppUsage :=
  let (rows, cursor) := splitLoop chunk chunkIndex timeline rows chunk.startNs
  if cursor < chunk.endNs then pushFragment chunk chunkIndex rows cursor chunk.endNs .active
  else rows

end Chunk

/-- `split_and_tag_app_usage` -/
def splitAndTagAppUsage (chunks : List EyesAppUsageChunk) (blocks : List EyesBlock)
    (options : EyesOptions) : List EyesFinalAppUsage :=
  let timeline := deviceTimeline blocks (secondsToNs options.fauBlockMinimumSeconds)
  chunks.zipIdx.foldl (fun rows (chunk, chunkIndex) => splitChunk chunk chunkIndex timeline rows) []

/-! ## The pointwise rule -/

/-- The key blocks are ordered by, an absent endpoint first. -/
def EyesBlock.key (block : EyesBlock) : WithBot Int ×ₗ WithBot Int ×ₗ EyesBlockType :=
  toLex (block.startNs, toLex (block.endNs, block.blockType))

/-- The block is paired, at least the minimum long, and covers the instant. -/
def EyesBlock.CoversAt (minimumNs : Int) (t : Int) (block : EyesBlock) : Prop :=
  ∃ start stop, block.paired = some (start, stop) ∧ minimumNs ≤ stop - start ∧ start ≤ t ∧ t < stop

/-- The state at the instant: that of the first block that covers it, or ACTIVE. -/
def StatusAt (blocks : List EyesBlock) (minimumNs t : Int) (status : EyesBlockType) : Prop :=
  (∃ block ∈ blocks, block.CoversAt minimumNs t ∧ block.blockType = status ∧
    ∀ other ∈ blocks, other.CoversAt minimumNs t → block.key ≤ other.key) ∨
  (status = .active ∧ ∀ block ∈ blocks, ¬ block.CoversAt minimumNs t)

/-- The same rule on the timeline. -/
def statusIn (timeline : List TimedBlock) (t : Int) : EyesBlockType :=
  ((timeline.find? (TimedBlock.covers t)).map TimedBlock.blockType).getD .active

/-- The rows tile the interval, name their chunk, and are tagged by the rule. -/
structure TaggedTiling (timeline : List TimedBlock) (chunk : EyesAppUsageChunk) (chunkIndex : Nat)
    (start : Int) (rows : List EyesFinalAppUsage) (stop : Int) : Prop where
  tiles : Tiles EyesFinalAppUsage.startNs EyesFinalAppUsage.endNs start rows stop
  names : ∀ row ∈ rows, row.chunkIndex = chunkIndex ∧ row.appPackageName = chunk.appPackageName
  tagged : ∀ row ∈ rows, ∀ t, Holds EyesFinalAppUsage.startNs EyesFinalAppUsage.endNs row t →
    row.deviceStatus = statusIn timeline t

/-! ## The cursor loop -/

section Loop

variable {timeline : List TimedBlock} {chunk : EyesAppUsageChunk} {chunkIndex : Nat}
  {start middle stop : Int} {status : EyesBlockType} {rows later : List EyesFinalAppUsage}

theorem TaggedTiling.nil : TaggedTiling timeline chunk chunkIndex start [] start :=
  ⟨rfl, fun _ h => absurd h List.not_mem_nil, fun _ h => absurd h List.not_mem_nil⟩

theorem TaggedTiling.append (hfirst : TaggedTiling timeline chunk chunkIndex start rows middle)
    (hlater : TaggedTiling timeline chunk chunkIndex middle later stop) :
    TaggedTiling timeline chunk chunkIndex start (rows ++ later) stop where
  tiles := hfirst.tiles.append hlater.tiles
  names row hrow := (List.mem_append.mp hrow).elim (hfirst.names row) (hlater.names row)
  tagged row hrow := (List.mem_append.mp hrow).elim (hfirst.tagged row) (hlater.tagged row)

/-- Rows tagged by the rule on one timeline are tagged by the rule on any other that gives the
instants of the interval the same states. -/
theorem TaggedTiling.congr {other : List TimedBlock}
    (h : TaggedTiling timeline chunk chunkIndex start rows stop)
    (hstatus : ∀ t, start ≤ t → t < stop → statusIn timeline t = statusIn other t) :
    TaggedTiling other chunk chunkIndex start rows stop where
  tiles := h.tiles
  names := h.names
  tagged row hrow t ht := by
    obtain ⟨hlower, -, hupper⟩ := h.tiles.bounds hrow
    rw [h.tagged row hrow t ht]
    exact hstatus t (hlower.trans ht.1) (lt_of_lt_of_le ht.2 hupper)

/-- Pushing a fragment extends the tiling when the fragment's state is the rule's throughout. -/
theorem exists_pushFragment (timeline : List TimedBlock) (chunk : EyesAppUsageChunk)
    (chunkIndex : Nat) (rows : List EyesFinalAppUsage) (status : EyesBlockType) (hle : start ≤ stop)
    (hstatus : ∀ t, start ≤ t → t < stop → status = statusIn timeline t) :
    ∃ added, pushFragment chunk chunkIndex rows start stop status = rows ++ added ∧
      TaggedTiling timeline chunk chunkIndex start added stop := by
  rcases lt_or_eq_of_le hle with hlt | rfl
  · refine ⟨_, if_pos hlt, ⟨rfl, hlt, rfl⟩, fun row hrow => ?_, fun row hrow t ht => ?_⟩
    · simp [List.mem_singleton.mp hrow]
    · rw [List.mem_singleton.mp hrow] at ht ⊢
      exact hstatus t ht.1 ht.2
  · exact ⟨[], by simp [pushFragment], TaggedTiling.nil⟩

theorem statusIn_cons_of_not_covers {block : TimedBlock} {t : Int} (h : ¬ block.covers t = true) :
    statusIn (block :: timeline) t = statusIn timeline t := by
  rw [statusIn, statusIn, List.find?_cons_of_neg h]

theorem statusIn_cons_of_covers {block : TimedBlock} {t : Int} (h : block.covers t = true) :
    statusIn (block :: timeline) t = block.blockType := by
  rw [statusIn, List.find?_cons_of_pos h]
  rfl

/-- Before the first block begins, no block covers. -/
theorem statusIn_eq_active {t : Int} (h : ∀ block ∈ timeline, t < block.startNs) :
    statusIn timeline t = .active := by
  have hnone : timeline.find? (TimedBlock.covers t) = none := by
    rw [List.find?_eq_none]
    intro block hblock hcovers
    simp only [TimedBlock.covers, Bool.decide_and, Bool.and_eq_true, decide_eq_true_eq] at hcovers
    exact absurd hcovers.1 (not_le.mpr (h block hblock))
  rw [statusIn, hnone]
  rfl

/-- A block does not cover the instants from its end on. -/
theorem statusIn_cons_past {block : TimedBlock} {t : Int} (h : block.endNs ≤ t) :
    statusIn (block :: timeline) t = statusIn timeline t := by
  refine statusIn_cons_of_not_covers ?_
  simp only [TimedBlock.covers, decide_eq_true_eq]
  omega

/-- What is left of the chunk before the block begins is ACTIVE. -/
theorem exists_lead {block : TimedBlock} (chunk : EyesAppUsageChunk) (chunkIndex : Nat)
    (rows : List EyesFinalAppUsage) (cursor : Int)
    (hfirst : ∀ other ∈ timeline, block.startNs ≤ other.startNs)
    (hblock : block.startNs < block.endNs) (hbegins : block.startNs < chunk.endNs)
    (hcursor : cursor < chunk.endNs) (hahead : cursor < block.endNs) :
    ∃ lead next, (if block.startNs > cursor then
        (pushFragment chunk chunkIndex rows cursor (min block.startNs chunk.endNs) .active,
          min block.startNs chunk.endNs)
      else (rows, cursor)) = (rows ++ lead, next) ∧
      block.startNs ≤ next ∧ next < block.endNs ∧ next < chunk.endNs ∧
      TaggedTiling (block :: timeline) chunk chunkIndex cursor lead next := by
  have hmin : min block.startNs chunk.endNs = block.startNs := min_eq_left hbegins.le
  rw [hmin]
  split
  · rename_i hlater
    obtain ⟨lead, hlead, htagged⟩ := exists_pushFragment (block :: timeline) chunk
      chunkIndex rows .active hlater.le fun t _ ht =>
        (statusIn_eq_active fun other hother => by
          rcases List.mem_cons.mp hother with rfl | hother
          · exact ht
          · exact lt_of_lt_of_le ht (hfirst other hother)).symm
    exact ⟨lead, block.startNs, by rw [hlead], le_rfl, hblock, hbegins, htagged⟩
  · exact ⟨[], cursor, by simp, by omega, hahead, hcursor, TaggedTiling.nil⟩

/-- The loop tags up to its final cursor, and no block covers the rest of the chunk. -/
theorem splitLoop_spec (chunk : EyesAppUsageChunk) (chunkIndex : Nat)
    (hsorted : timeline.Pairwise fun a b => a.startNs ≤ b.startNs)
    (hpositive : ∀ block ∈ timeline, block.startNs < block.endNs) (rows : List EyesFinalAppUsage) (cursor : Int) (hcursor : cursor ≤ chunk.endNs) :
    ∃ added final, splitLoop chunk chunkIndex timeline rows cursor = (rows ++ added, final) ∧
      final ≤ chunk.endNs ∧ TaggedTiling timeline chunk chunkIndex cursor added final ∧
      ∀ t, final ≤ t → t < chunk.endNs → statusIn timeline t = .active := by
  induction timeline generalizing rows cursor with
  | nil => exact ⟨[], cursor, by simp [splitLoop], hcursor, TaggedTiling.nil, fun _ _ _ => rfl⟩
  | cons block rest ih =>
      obtain ⟨hfirst, hrest⟩ := List.pairwise_cons.mp hsorted
      have hrestPositive : ∀ other ∈ rest, other.startNs < other.endNs :=
        fun other hother => hpositive other (List.mem_cons_of_mem _ hother)
      unfold splitLoop
      split
      · -- the loop breaks: nothing is left of the chunk, or every block begins after it
        rename_i hbreak
        refine ⟨[], cursor, by simp, hcursor, TaggedTiling.nil, fun t hlower hupper => ?_⟩
        refine statusIn_eq_active fun other hother => ?_
        have hbegins : block.startNs ≤ other.startNs := by
          rcases List.mem_cons.mp hother with rfl | hother
          · exact le_rfl
          · exact hfirst other hother
        omega
      · rename_i hcontinue
        split
        · -- the block ended before the cursor
          rename_i hpast
          obtain ⟨added, final, heq, hfinal, htagged, hactive⟩ :=
            ih hrest hrestPositive rows cursor hcursor
          exact ⟨added, final, heq, hfinal,
            htagged.congr fun t ht _ => (statusIn_cons_past (by omega)).symm,
            fun t hlower hupper =>
              (statusIn_cons_past (hpast.trans (htagged.tiles.le.trans hlower))).trans
                (hactive t hlower hupper)⟩
        · rename_i hahead
          have hblock := hpositive block List.mem_cons_self
          obtain ⟨lead, next, hlead, hstart, hend, hnext, hbefore⟩ :=
            exists_lead chunk chunkIndex rows cursor hfirst hblock (by omega) (by omega) (by omega)
          have hlong : next ≤ min block.endNs chunk.endNs := by omega
          obtain ⟨cover, hcover, hcovered⟩ := exists_pushFragment (block :: rest) chunk chunkIndex
            (rows ++ lead) block.blockType hlong fun t hlower hupper =>
              (statusIn_cons_of_covers (by
                simp only [TimedBlock.covers, decide_eq_true_eq]
                omega)).symm
          have hmax : max next (min block.endNs chunk.endNs) = min block.endNs chunk.endNs := by
            omega
          obtain ⟨added, final, heq, hfinal, htagged, hactive⟩ :=
            ih hrest hrestPositive (rows ++ lead ++ cover) (min block.endNs chunk.endNs) (by omega)
          have hle := htagged.tiles.le
          -- the rest of the chunk lies past the block, unless nothing is left of it
          have hpast : ∀ t, min block.endNs chunk.endNs ≤ t → t < chunk.endNs →
              statusIn (block :: rest) t = statusIn rest t :=
            fun t hlower hupper => statusIn_cons_past (by omega)
          refine ⟨lead ++ cover ++ added, final, ?_, hfinal, (hbefore.append hcovered).append
            (htagged.congr fun t hlower hupper => (hpast t hlower (by omega)).symm),
            fun t hlower hupper => (hpast t (by omega) hupper).trans (hactive t hlower hupper)⟩
          simp only [hlead, hcover, hmax, List.append_assoc] at heq ⊢
          rw [heq]

/-- A chunk of positive length is tiled by tagged rows; any other chunk has none. -/
theorem exists_splitChunk (chunk : EyesAppUsageChunk) (chunkIndex : Nat)
    (hsorted : timeline.Pairwise fun a b => a.startNs ≤ b.startNs)
    (hpositive : ∀ block ∈ timeline, block.startNs < block.endNs) (rows : List EyesFinalAppUsage) :
    ∃ part, splitChunk chunk chunkIndex timeline rows = rows ++ part ∧
      (chunk.endNs ≤ chunk.startNs → part = []) ∧
      (chunk.startNs < chunk.endNs →
        TaggedTiling timeline chunk chunkIndex chunk.startNs part chunk.endNs) := by
  rcases lt_or_ge chunk.startNs chunk.endNs with hlt | hge
  · obtain ⟨added, final, heq, hfinal, htagged, hactive⟩ :=
      splitLoop_spec chunk chunkIndex hsorted hpositive rows chunk.startNs hlt.le
    obtain ⟨tail, htail, htailTagged⟩ := exists_pushFragment timeline chunk chunkIndex
      (rows ++ added) .active hfinal fun t hlower hupper => (hactive t hlower hupper).symm
    refine ⟨added ++ tail, ?_, fun h => absurd hlt (not_lt.mpr h),
      fun _ => htagged.append htailTagged⟩
    unfold splitChunk
    rw [heq, ← List.append_assoc, ← htail]
    dsimp only [pushFragment]
    split <;> rfl
  · have hloop : splitLoop chunk chunkIndex timeline rows chunk.startNs = (rows, chunk.startNs) := by
      cases timeline with
      | nil => rfl
      | cons block rest => exact if_pos (Or.inl hge)
    refine ⟨[], ?_, fun _ => rfl, fun h => absurd h (not_lt.mpr hge)⟩
    unfold splitChunk
    rw [hloop, List.append_nil]
    exact if_neg (not_lt.mpr hge)

/-- Chunk after chunk, the rows of each follow those of its predecessors. -/
theorem exists_foldl_splitChunk (timeline : List TimedBlock)
    (hsorted : timeline.Pairwise fun a b => a.startNs ≤ b.startNs)
    (hpositive : ∀ block ∈ timeline, block.startNs < block.endNs)
    (indexed : List (EyesAppUsageChunk × Nat)) (rows : List EyesFinalAppUsage) :
    ∃ parts : List (List EyesFinalAppUsage),
      indexed.foldl (fun rows (chunk, chunkIndex) => splitChunk chunk chunkIndex timeline rows)
        rows = rows ++ parts.flatten ∧
      List.Forall₂ (fun (chunk, chunkIndex) part =>
        (chunk.endNs ≤ chunk.startNs → part = []) ∧ (chunk.startNs < chunk.endNs →
          TaggedTiling timeline chunk chunkIndex chunk.startNs part chunk.endNs)) indexed parts := by
  induction indexed generalizing rows with
  | nil => exact ⟨[], by simp, List.Forall₂.nil⟩
  | cons first rest ih =>
      obtain ⟨chunk, chunkIndex⟩ := first
      obtain ⟨part, heq, hpart⟩ := exists_splitChunk chunk chunkIndex hsorted hpositive rows
      obtain ⟨parts, hrest, hparts⟩ := ih (rows ++ part)
      refine ⟨part :: parts, ?_, List.Forall₂.cons hpart hparts⟩
      simp only [List.foldl_cons, heq, hrest, List.flatten_cons, List.append_assoc]

end Loop

/-! ## The timeline -/

section Timeline

variable {blocks : List EyesBlock} {minimumNs : Int}

theorem mem_deviceTimeline {timed : TimedBlock} :
    timed ∈ deviceTimeline blocks minimumNs ↔ ∃ block ∈ blocks,
      block.paired = some (timed.startNs, timed.endNs) ∧
        minimumNs ≤ wrap64 (timed.endNs - timed.startNs) ∧ block.blockType = timed.blockType := by
  simp only [deviceTimeline, mem_sortByKey, List.mem_filterMap, Option.map_eq_some_iff,
    Option.filter_eq_some_iff, Prod.exists]
  constructor
  · rintro ⟨block, hblock, start, stop, ⟨hpaired, hlong⟩, rfl⟩
    exact ⟨block, hblock, hpaired, by simpa using hlong, rfl⟩
  · rintro ⟨block, hblock, hpaired, hlong, htype⟩
    exact ⟨block, hblock, _, _, ⟨hpaired, by simpa using hlong⟩, by rw [htype]⟩

theorem deviceTimeline_positive : ∀ timed ∈ deviceTimeline blocks minimumNs,
    timed.startNs < timed.endNs := by
  intro timed htimed
  obtain ⟨block, -, hpaired, -⟩ := mem_deviceTimeline.mp htimed
  exact (EyesBlock.paired_eq_some.mp hpaired).2.2

theorem deviceTimeline_sorted : (deviceTimeline blocks minimumNs).Pairwise fun a b =>
    a.startNs ≤ b.startNs := by
  refine (pairwise_sortByKey TimedBlock.key _).imp fun h => ?_
  rcases Prod.Lex.toLex_le_toLex.mp h with h | h
  · exact h.le
  · exact h.1.le

/-- The key of a paired block is the key of its entry in the timeline. -/
theorem key_le_key {first second : EyesBlock} {a b : TimedBlock}
    (hfirst : first.paired = some (a.startNs, a.endNs)) (hfirstType : first.blockType = a.blockType)
    (hsecond : second.paired = some (b.startNs, b.endNs))
    (hsecondType : second.blockType = b.blockType) (h : a.key ≤ b.key) :
    first.key ≤ second.key := by
  obtain ⟨hstart, hend, -⟩ := EyesBlock.paired_eq_some.mp hfirst
  obtain ⟨hstart', hend', -⟩ := EyesBlock.paired_eq_some.mp hsecond
  simp only [TimedBlock.key, Prod.Lex.toLex_le_toLex] at h
  simp only [EyesBlock.key, hstart, hend, hstart', hend', hfirstType, hsecondType,
    Prod.Lex.toLex_le_toLex]
  rcases h with h | ⟨h, h' | ⟨h', htype⟩⟩
  · exact Or.inl (WithBot.coe_lt_coe.mpr h)
  · exact Or.inr ⟨congrArg WithBot.some h, Or.inl (WithBot.coe_lt_coe.mpr h')⟩
  · exact Or.inr ⟨congrArg WithBot.some h, Or.inr ⟨congrArg WithBot.some h', htype⟩⟩

/-- The walk over the timeline finds the first block that covers the instant. -/
theorem statusAt_statusIn (hfits : ∀ block ∈ blocks, ∀ start stop,
    block.paired = some (start, stop) → Fits64 (stop - start)) (t : Int) :
    StatusAt blocks minimumNs t (statusIn (deviceTimeline blocks minimumNs) t) := by
  have hentry : ∀ block ∈ blocks, block.CoversAt minimumNs t →
      ∃ timed ∈ deviceTimeline blocks minimumNs, timed.covers t = true ∧
        block.paired = some (timed.startNs, timed.endNs) ∧ block.blockType = timed.blockType := by
    rintro block hblock ⟨start, stop, hpaired, hlong, hlower, hupper⟩
    refine ⟨⟨start, stop, block.blockType⟩, mem_deviceTimeline.mpr ⟨block, hblock, hpaired, ?_, rfl⟩,
      by simp [TimedBlock.covers, hlower, hupper], hpaired, rfl⟩
    rw [wrap64_of_fits (hfits block hblock start stop hpaired)]
    exact hlong
  unfold statusIn
  cases hfind : (deviceTimeline blocks minimumNs).find? (TimedBlock.covers t) with
  | none =>
      refine Or.inr ⟨rfl, fun block hblock hcovers => ?_⟩
      obtain ⟨timed, htimed, ht, -⟩ := hentry block hblock hcovers
      exact List.find?_eq_none.mp hfind timed htimed ht
  | some timed =>
      obtain ⟨block, hblock, hpaired, hlong, htype⟩ :=
        mem_deviceTimeline.mp (List.mem_of_find?_eq_some hfind)
      have ht := List.find?_some hfind
      simp only [TimedBlock.covers, decide_eq_true_eq] at ht
      rw [wrap64_of_fits (hfits block hblock _ _ hpaired)] at hlong
      refine Or.inl ⟨block, hblock, ⟨_, _, hpaired, hlong, ht⟩, htype, fun other hother hcovers => ?_⟩
      obtain ⟨timed', htimed', ht', hpaired', htype'⟩ := hentry other hother hcovers
      exact key_le_key hpaired htype hpaired' htype'
        (find_least (pairwise_sortByKey _ _) hfind htimed' ht')

/-- Without blocks typed ACTIVE, an instant is ACTIVE exactly if no block covers it. -/
theorem StatusAt.active_iff {t : Int} {status : EyesBlockType}
    (h : StatusAt blocks minimumNs t status) (hactive : ∀ block ∈ blocks, block.blockType ≠ .active) :
    status = .active ↔ ∀ block ∈ blocks, ¬ block.CoversAt minimumNs t := by
  rcases h with ⟨block, hblock, hcovers, rfl, -⟩ | ⟨rfl, hnone⟩
  · exact iff_of_false (hactive block hblock) fun hnone => hnone block hblock hcovers
  · exact iff_of_true rfl hnone

end Timeline

/-- For each chunk in order, the emitted fragments tile the chunk (none if it has no length), and
every instant carries the state of the first block that covers it, or ACTIVE. -/
theorem split_and_tag_app_usage_pointwise (chunks : List EyesAppUsageChunk)
    (blocks : List EyesBlock) (options : EyesOptions)
    (hfits : ∀ block ∈ blocks, ∀ start stop,
      block.paired = some (start, stop) → Fits64 (stop - start)) :
    ∃ parts : List (List EyesFinalAppUsage),
      splitAndTagAppUsage chunks blocks options = parts.flatten ∧
      List.Forall₂ (fun (chunk, chunkIndex) part =>
        (chunk.endNs ≤ chunk.startNs → part = []) ∧
        (chunk.startNs < chunk.endNs → Tiles EyesFinalAppUsage.startNs EyesFinalAppUsage.endNs
          chunk.startNs part chunk.endNs) ∧
        ∀ row ∈ part, row.chunkIndex = chunkIndex ∧ row.appPackageName = chunk.appPackageName ∧
          ∀ t, row.startNs ≤ t → t < row.endNs →
            StatusAt blocks (secondsToNs options.fauBlockMinimumSeconds) t row.deviceStatus ∧
            ((∀ block ∈ blocks, block.blockType ≠ .active) → (row.deviceStatus = .active ↔
              ∀ block ∈ blocks,
                ¬ block.CoversAt (secondsToNs options.fauBlockMinimumSeconds) t)))
        chunks.zipIdx parts := by
  obtain ⟨parts, heq, hparts⟩ := exists_foldl_splitChunk
    (deviceTimeline blocks (secondsToNs options.fauBlockMinimumSeconds)) deviceTimeline_sorted deviceTimeline_positive chunks.zipIdx []
  refine ⟨parts, by simpa [splitAndTagAppUsage] using heq, hparts.imp ?_⟩
  rintro ⟨chunk, chunkIndex⟩ part ⟨hempty, htiled⟩
  refine ⟨hempty, fun hlt => (htiled hlt).tiles, fun row hrow => ?_⟩
  have hlt : chunk.startNs < chunk.endNs := by
    by_contra hge
    simp [hempty (not_lt.mp hge)] at hrow
  obtain ⟨hindex, hname⟩ := (htiled hlt).names row hrow
  refine ⟨hindex, hname, fun t hlower hupper => ?_⟩
  have hstatus := (htiled hlt).tagged row hrow t ⟨hlower, hupper⟩ ▸ statusAt_statusIn hfits t
  exact ⟨hstatus, hstatus.active_iff⟩

/-- Blocks that overlap, nest, and begin before the chunk. -/
def nestedBlocks : List EyesBlock :=
  [⟨.gap, some 40000000000, some 90000000000⟩, ⟨.idle, some (-20000000000), some 50000000000⟩,
    ⟨.glance, some 10000000000, some 30000000000⟩]

/-- The chunk the blocks are laid over. -/
def nestedChunk : EyesAppUsageChunk := ⟨"com.a", 0, 100000000000, [0]⟩

theorem secondsToNs_fauBlockMinimumSeconds :
    secondsToNs EyesOptions.default.fauBlockMinimumSeconds = 5000000000 :=
  secondsToNs_natCast (n := 5) (by decide) (by decide)

/-- One chunk under nested blocks: its fragments tile it and follow the pointwise rule. -/
theorem split_and_tag_nested_blocks :
    ∃ part, splitAndTagAppUsage [nestedChunk] nestedBlocks .default = part ∧
      Tiles EyesFinalAppUsage.startNs EyesFinalAppUsage.endNs 0 part 100000000000 ∧
      ∀ row ∈ part, ∀ t, row.startNs ≤ t → t < row.endNs →
        StatusAt nestedBlocks 5000000000 t row.deviceStatus := by
  obtain ⟨parts, heq, hparts⟩ := split_and_tag_app_usage_pointwise [nestedChunk] nestedBlocks
    .default (by simp [nestedBlocks, EyesBlock.paired]; decide)
  rw [secondsToNs_fauBlockMinimumSeconds] at hparts
  obtain ⟨part, rest, ⟨-, htiles, hrows⟩, hrest, rfl⟩ := List.forall₂_cons_left_iff.mp hparts
  rw [List.forall₂_nil_left_iff.mp hrest] at heq
  exact ⟨part, by simpa using heq, htiles (by decide),
    fun row hrow t hlower hupper => ((hrows row hrow).2.2 t hlower hupper).1⟩

example : (splitAndTagAppUsage [nestedChunk] nestedBlocks .default).map
    (fun row => (row.startNs, row.endNs, row.deviceStatus)) =
    [(0, 50000000000, .idle), (50000000000, 90000000000, .gap),
      (90000000000, 100000000000, .active)] := by
  unfold splitAndTagAppUsage
  rw [secondsToNs_fauBlockMinimumSeconds]
  decide +kernel

/-- An instant is tagged ACTIVE exactly if no long enough block covers it. -/
def ActiveIffUncovered (chunks : List EyesAppUsageChunk) (blocks : List EyesBlock)
    (options : EyesOptions) : Prop :=
  ∀ row ∈ splitAndTagAppUsage chunks blocks options, ∀ t, row.startNs ≤ t → t < row.endNs →
    (row.deviceStatus = .active ↔ ∀ block ∈ blocks,
      ¬ block.CoversAt (secondsToNs options.fauBlockMinimumSeconds) t)

/-- An instant under a block typed ACTIVE is tagged ACTIVE although a block covers it. So is an
instant under a block whose length is not an `i64`: the wrapped length is negative, and the block
is dropped as too short. -/
theorem split_and_tag_active_covered :
    ¬ (∀ chunks blocks options, (∀ block ∈ blocks, ∀ start stop,
        block.paired = some (start, stop) → Fits64 (stop - start)) →
      ActiveIffUncovered chunks blocks options) ∧
    ¬ (∀ chunks blocks options, (∀ block ∈ blocks, block.blockType ≠ .active) →
      ActiveIffUncovered chunks blocks options) := by
  have huntagged : ∀ block : EyesBlock,
      ⟨"com.a", 0, 0, 100000000000, .active⟩ ∈ splitAndTagAppUsage [nestedChunk] [block] .default →
      block.CoversAt 5000000000 0 → ¬ ActiveIffUncovered [nestedChunk] [block] .default := by
    intro block hrow hcovers hiff
    have huncovered := (hiff _ hrow 0 (by decide) (by decide)).mp rfl block List.mem_cons_self
    rw [secondsToNs_fauBlockMinimumSeconds] at huncovered
    exact huncovered hcovers
  constructor
  · intro hclaim
    refine huntagged ⟨.active, some 0, some 100000000000⟩ ?_
      ⟨0, 100000000000, rfl, by decide, by decide, by decide⟩ (hclaim _ _ _ ?_)
    · unfold splitAndTagAppUsage
      rw [secondsToNs_fauBlockMinimumSeconds]
      decide +kernel
    · simp [EyesBlock.paired]
      decide
  · intro hclaim
    refine huntagged ⟨.idle, some i64Min, some i64Max⟩ ?_
      ⟨i64Min, i64Max, rfl, by decide, by decide, by decide⟩ (hclaim _ _ _ ?_)
    · unfold splitAndTagAppUsage
      rw [secondsToNs_fauBlockMinimumSeconds]
      decide +kernel
    · simp

end Chronicle.Eyes
