import Chronicle.Library.Blocks
import Chronicle.Library.Sha256
import Chronicle.Screens.Schoedel

/-!
# Episodes and runs of openers

The episodes of an interval are the longest runs of openers of one package among its rows. Each ends
with the last row of its package before the next run, or with the interval.
-/

namespace Chronicle.Screens

open Chronicle.Library Chronicle.Library.Blocks Chronicle.Library.StableSort

/-! ## Blocks of launches -/

/-- The package that an eligible row launches. -/
def RawB05AppEvent.launches (row : RawB05AppEvent) : Option String :=
  if row.appOpenerEligible then row.package else none

/-- The row is an opener without a package. -/
def RawB05AppEvent.lacksPackage (row : RawB05AppEvent) : Bool :=
  row.appOpenerEligible && row.package.isNone

/-- Rows from a launch up to the next launch of another package. -/
abbrev LaunchBlock := Block RawB05AppEvent String

/-- The rows of a block that belong to its package. -/
def ownRows (block : LaunchBlock) : List RawB05AppEvent :=
  block.elements.filter fun row => row.packageName = some block.name

/-- The open episode of a block. -/
def openOf (block : LaunchBlock) : OpenSchoedelEpisode := ⟨block.head, block.name, ownRows block⟩

section Rows

variable {row : RawB05AppEvent} {block : LaunchBlock} {package : String}

theorem packageName_of_package (h : row.package = some package) :
    row.packageName = some package ∧ package.isEmpty = false := by
  obtain ⟨hname, hblank⟩ := Option.filter_eq_some_iff.mp h
  exact ⟨hname, by simpa using hblank⟩

theorem package_of_packageName (h : row.packageName = some package)
    (hblank : package.isEmpty = false) : row.package = some package :=
  Option.filter_eq_some_iff.mpr ⟨h, by simpa using hblank⟩

theorem launches_eq_some (h : row.launches = some package) :
    row.appOpenerEligible = true ∧ row.package = some package := by
  unfold RawB05AppEvent.launches at h
  split at h
  · rename_i heligible
    exact ⟨heligible, h⟩
  · exact nomatch h

theorem name_not_blank (h : block.Named RawB05AppEvent.launches) : block.name.isEmpty = false :=
  (packageName_of_package (launches_eq_some h.head).2).2

theorem ownRows_push (block : LaunchBlock) (row : RawB05AppEvent) :
    ownRows (block.push row) =
      ownRows block ++ if row.packageName = some block.name then [row] else [] := by
  show (block.elements ++ [row]).filter (fun x => x.packageName = some block.name) = _
  rw [List.filter_append, ownRows]
  congr 1
  by_cases h : row.packageName = some block.name <;> simp [h]

theorem openOf_push_own (h : row.packageName = some block.name) :
    openOf (block.push row) = (openOf block).push row := by
  rw [openOf, ownRows_push, if_pos h]
  rfl

theorem openOf_push_other (h : row.packageName ≠ some block.name) :
    openOf (block.push row) = openOf block := by
  rw [openOf, ownRows_push, if_neg h, List.append_nil]
  rfl

theorem openOf_singleton (h : row.packageName = some package) :
    openOf ⟨package, row, []⟩ = row.opens package := by
  have hfilter : ownRows ⟨package, row, []⟩ = [row] := List.filter_cons_of_pos (by simpa using h)
  rw [openOf, hfilter]
  rfl

theorem head_mem_ownRows (h : block.Named RawB05AppEvent.launches) :
    block.head ∈ ownRows block := by
  have hname := (packageName_of_package (launches_eq_some h.head).2).1
  exact List.mem_filter.mpr ⟨List.mem_cons_self, by simpa using hname⟩

end Rows

/-! ## The loop -/

section Loop

variable (sha256 : List UInt8 → List UInt8) (interval : ScreenIntervalEvidence)

/-- The boundary of the last episode. -/
def lastBoundary : SchoedelBoundary :=
  if interval.rightCensored then .rightCensored else .screenEnd

/-- The episodes of the blocks. -/
def blockEpisodes : List LaunchBlock → List SchoedelEpisodeEvidence
  | [] => []
  | [block] => [completeSchoedelEpisode sha256 interval (openOf block) (lastBoundary interval)]
  | block :: next :: rest =>
      completeSchoedelEpisode sha256 interval (openOf block) .differentApp ::
        blockEpisodes (next :: rest)

variable {sha256 interval} {row : RawB05AppEvent} {rest : List RawB05AppEvent}
variable {current : OpenSchoedelEpisode} {open_ : Option OpenSchoedelEpisode} {package : String}

theorem lacks_of_launches (h : row.launches = some package) : row.lacksPackage = false := by
  rw [RawB05AppEvent.lacksPackage, (launches_eq_some h).2]
  exact Bool.and_false _

/-- A row that neither launches nor lacks a package is not eligible. -/
theorem not_eligible (hlaunches : row.launches = none) (hlacks : ¬row.lacksPackage = true) :
    ¬row.appOpenerEligible = true := by
  intro heligible
  rw [RawB05AppEvent.launches, if_pos heligible] at hlaunches
  exact hlacks (by rw [RawB05AppEvent.lacksPackage, heligible, hlaunches]; rfl)

theorem reconstruct_lacks (h : row.lacksPackage = true) :
    reconstructSchoedelFrom sha256 interval open_ (row :: rest) =
      ((reconstructSchoedelFrom sha256 interval open_ rest).1, missingPackageIssue interval row ::
        (reconstructSchoedelFrom sha256 interval open_ rest).2) := by
  obtain ⟨heligible, hnone⟩ := Bool.and_eq_true_iff.mp h
  cases open_ <;>
    rw [reconstructSchoedelFrom, if_pos heligible, Option.isNone_iff_eq_none.mp hnone]

theorem reconstruct_start (h : row.launches = some package) :
    reconstructSchoedelFrom sha256 interval none (row :: rest) =
      reconstructSchoedelFrom sha256 interval (some (row.opens package)) rest := by
  obtain ⟨heligible, hpackage⟩ := launches_eq_some h
  rw [reconstructSchoedelFrom, if_pos heligible, hpackage]

theorem reconstruct_next (h : row.launches = some package) (hne : current.packageName ≠ package) :
    reconstructSchoedelFrom sha256 interval (some current) (row :: rest) =
      (completeSchoedelEpisode sha256 interval current .differentApp ::
        (reconstructSchoedelFrom sha256 interval (some (row.opens package)) rest).1,
        (reconstructSchoedelFrom sha256 interval (some (row.opens package)) rest).2) := by
  obtain ⟨heligible, hpackage⟩ := launches_eq_some h
  rw [reconstructSchoedelFrom, if_pos heligible, hpackage]
  exact if_pos hne

theorem reconstruct_same (h : row.launches = some current.packageName) :
    reconstructSchoedelFrom sha256 interval (some current) (row :: rest) =
      reconstructSchoedelFrom sha256 interval (some (current.push row)) rest := by
  obtain ⟨heligible, hpackage⟩ := launches_eq_some h
  rw [reconstructSchoedelFrom, if_pos heligible, hpackage]
  exact if_neg (not_not_intro rfl)

theorem reconstruct_background (h : ¬row.appOpenerEligible = true) :
    reconstructSchoedelFrom sha256 interval (some current) (row :: rest) =
      if row.packageName = some current.packageName then
        reconstructSchoedelFrom sha256 interval (some (current.push row)) rest
      else reconstructSchoedelFrom sha256 interval (some current) rest := by
  rw [reconstructSchoedelFrom, if_neg h]

theorem reconstruct_idle (h : ¬row.appOpenerEligible = true) :
    reconstructSchoedelFrom sha256 interval none (row :: rest) =
      reconstructSchoedelFrom sha256 interval none rest := by
  rw [reconstructSchoedelFrom, if_neg h]

variable (sha256 interval) in
/-- From the open block on, the loop completes one episode for each block of the rows, and reports
the openers without a package. -/
def Completes (open_ : Option LaunchBlock) (rows : List RawB05AppEvent) : Prop :=
  reconstructSchoedelFrom sha256 interval (open_.map openOf) rows =
    (blockEpisodes sha256 interval (blocks RawB05AppEvent.launches open_ rows),
      (rows.filter (·.lacksPackage)).map (missingPackageIssue interval))

variable {block : LaunchBlock}

/-- A launch opens the first block. -/
theorem Completes.start (hlaunches : row.launches = some package)
    (h : Completes sha256 interval (some ⟨package, row, []⟩) rest) :
    Completes sha256 interval none (row :: rest) := by
  have hname := (packageName_of_package (launches_eq_some hlaunches).2).1
  rw [Completes, Option.map_some, openOf_singleton hname] at h
  rw [Completes, Option.map_none, reconstruct_start hlaunches, h, blocks_start hlaunches,
    List.filter_cons_of_neg (by simp [lacks_of_launches hlaunches])]

/-- A launch of the open package belongs to the open block. -/
theorem Completes.same (hlaunches : row.launches = some block.name)
    (h : Completes sha256 interval (some (block.push row)) rest) :
    Completes sha256 interval (some block) (row :: rest) := by
  have hname := (packageName_of_package (launches_eq_some hlaunches).2).1
  have hpush : ∀ name ∈ row.launches, name = block.name := by
    intro name hmem
    rw [hlaunches] at hmem
    exact (Option.mem_some_iff.mp hmem).symm
  rw [Completes, Option.map_some, openOf_push_own hname] at h
  rw [Completes, Option.map_some, reconstruct_same hlaunches, h, blocks_push hpush,
    List.filter_cons_of_neg (by simp [lacks_of_launches hlaunches])]

/-- A launch of another package completes the open block. -/
theorem Completes.next (hlaunches : row.launches = some package) (hne : block.name ≠ package)
    (h : Completes sha256 interval (some ⟨package, row, []⟩) rest) :
    Completes sha256 interval (some block) (row :: rest) := by
  have hname := (packageName_of_package (launches_eq_some hlaunches).2).1
  obtain ⟨first, later, hblocks, _⟩ :=
    exists_blocks_some RawB05AppEvent.launches ⟨package, row, []⟩ rest
  rw [Completes, Option.map_some, openOf_singleton hname] at h
  rw [Completes, Option.map_some, reconstruct_next hlaunches hne, h, blocks_next hlaunches hne,
    hblocks, List.filter_cons_of_neg (by simp [lacks_of_launches hlaunches])]
  rfl

/-- Without an open block, a row that is no launch changes nothing. -/
theorem Completes.idle (hlaunches : row.launches = none)
    (h : Completes sha256 interval none rest) : Completes sha256 interval none (row :: rest) := by
  rw [Completes, Option.map_none] at h
  rw [Completes, Option.map_none, blocks_idle hlaunches]
  by_cases hlacks : row.lacksPackage = true
  · rw [reconstruct_lacks hlacks, h, List.filter_cons_of_pos hlacks]
    rfl
  · rw [reconstruct_idle (not_eligible hlaunches hlacks), h, List.filter_cons_of_neg hlacks]

/-- A row that is no launch belongs to the open block, and to its episode if it is of its
package. -/
theorem Completes.within (hblock : block.Named RawB05AppEvent.launches)
    (hlaunches : row.launches = none)
    (h : Completes sha256 interval (some (block.push row)) rest) :
    Completes sha256 interval (some block) (row :: rest) := by
  have hpush : ∀ name ∈ row.launches, name = block.name := by
    intro name hmem
    rw [hlaunches] at hmem
    exact absurd hmem (Option.not_mem_none _)
  rw [Completes, Option.map_some] at h
  rw [Completes, Option.map_some, blocks_push hpush]
  by_cases hlacks : row.lacksPackage = true
  · -- a row without a package is not taken into the open episode
    have hname : row.packageName ≠ some block.name := by
      intro hname
      have hnone := Option.isNone_iff_eq_none.mp (Bool.and_eq_true_iff.mp hlacks).2
      rw [package_of_packageName hname (name_not_blank hblock)] at hnone
      exact nomatch hnone
    rw [openOf_push_other hname] at h
    rw [reconstruct_lacks hlacks, h, List.filter_cons_of_pos hlacks]
    rfl
  · rw [reconstruct_background (not_eligible hlaunches hlacks), List.filter_cons_of_neg hlacks, ← h]
    by_cases hname : row.packageName = some block.name
    · rw [openOf_push_own hname]
      exact if_pos hname
    · rw [openOf_push_other hname]
      exact if_neg hname

/-- The loop completes one episode for each block, and reports the openers without a package. -/
theorem reconstructSchoedelFrom_eq (rows : List RawB05AppEvent) (open_ : Option LaunchBlock)
    (hopen : ∀ block ∈ open_, block.Named RawB05AppEvent.launches) :
    Completes sha256 interval open_ rows := by
  induction rows generalizing open_ with
  | nil => cases open_ <;> rfl
  | cons row rows ih =>
      -- the cases are those of the loop: a launch of the open package, of another one, or none
      cases hlaunches : row.launches with
      | some package =>
          have hnew := ih (some ⟨package, row, []⟩) fun block hblock =>
            Option.mem_some_iff.mp hblock ▸ named_singleton hlaunches
          cases open_ with
          | none => exact hnew.start hlaunches
          | some block =>
              by_cases hname : block.name = package
              · subst hname
                have hpush : ∀ name ∈ row.launches, name = block.name := by
                  intro name hmem
                  rw [hlaunches] at hmem
                  exact (Option.mem_some_iff.mp hmem).symm
                have hrest := ih (some (block.push row)) fun other hother =>
                  Option.mem_some_iff.mp hother ▸ (hopen block rfl).push hpush
                exact hrest.same hlaunches
              · exact hnew.next hlaunches hname
      | none =>
          cases open_ with
          | none => exact (ih none hopen).idle hlaunches
          | some block =>
              have hblock := hopen block rfl
              have hpush : ∀ name ∈ row.launches, name = block.name := by
                intro name hmem
                rw [hlaunches] at hmem
                exact absurd hmem (Option.not_mem_none _)
              have hrest := ih (some (block.push row)) fun other hother =>
                Option.mem_some_iff.mp hother ▸ hblock.push hpush
              exact hrest.within hblock hlaunches

end Loop

/-! ## The episode of a block -/

/-- The episode of a block of the interval: it starts with the opener, takes in the rows of its
package, and ends with the last of them, unless the interval is open and the block is its last. -/
structure IsEpisodeOf (interval : ScreenIntervalEvidence) (block : LaunchBlock) (isLast : Bool)
    (episode : SchoedelEpisodeEvidence) : Prop where
  participantId : episode.participantId = interval.participantId
  screenIntervalId : episode.screenIntervalId = interval.screenIntervalId
  packageName : episode.packageName = block.name
  startNs : episode.startNs = block.head.ns
  startSourceRow : episode.startSourceRow = block.head.sourceDataRow
  sourceRows : ∀ source, source ∈ episode.sourceRows ↔
    ∃ row ∈ ownRows block, source ∈ row.sourceDataRows
  unbounded : episode.stopNs = none ↔ interval.rightCensored = true ∧ isLast = true
  stop : ¬(interval.rightCensored = true ∧ isLast = true) →
    ∃ last ∈ (ownRows block).getLast?, episode.stopNs = some last.ns ∧
      episode.stopSourceRow = some last.sourceDataRow

section Episode

variable {sha256 : List UInt8 → List UInt8} {interval : ScreenIntervalEvidence}
variable {block : LaunchBlock} {rows : List RawB05AppEvent}

/-- Rows in their order, with different source rows, are completed as they are. -/
theorem rows_openOf (hsorted : block.elements.Pairwise fun a b => a.key ≤ b.key)
    (hdistinct : (block.elements.map (·.sourceDataRow)).Nodup) :
    (openOf block).rows = ownRows block := by
  have hown : (ownRows block).Pairwise fun a b => a.key ≤ b.key := hsorted.filter _
  have hne : (ownRows block).Pairwise fun a b => a.sourceDataRow ≠ b.sourceDataRow :=
    (List.pairwise_map.mp hdistinct).filter _
  show (sortByKey RawB05AppEvent.key (ownRows block)).destutter _ = _
  -- sorting and dropping repeats change nothing here
  rw [sortByKey_eq_self hown]
  exact List.destutter_of_isChain _ _ hne.isChain

theorem isEpisodeOf_complete (hblock : block.Named RawB05AppEvent.launches)
    (hsorted : block.elements.Pairwise fun a b => a.key ≤ b.key)
    (hdistinct : (block.elements.map (·.sourceDataRow)).Nodup) {boundary : SchoedelBoundary}
    {isLast : Bool}
    (hboundary : boundary = .rightCensored ↔ interval.rightCensored = true ∧ isLast = true) :
    IsEpisodeOf interval block isLast
      (completeSchoedelEpisode sha256 interval (openOf block) boundary) := by
  have hrows := rows_openOf hsorted hdistinct
  refine ⟨rfl, rfl, rfl, rfl, rfl, ?_, ?_, ?_⟩
  · intro source
    show source ∈ sortDedup ((openOf block).rows.flatMap (·.sourceDataRows)) ↔ _
    rw [mem_sortDedup, List.mem_flatMap, hrows]
  · rw [← hboundary]
    cases boundary with
    | rightCensored => exact iff_of_true rfl rfl
    | differentApp | screenEnd => exact iff_of_false (fun h => nomatch h) fun h => nomatch h
  · intro hbounded
    have hlast : ∃ last, (ownRows block).getLast? = some last := by
      cases hlast : (ownRows block).getLast? with
      | some last => exact ⟨last, rfl⟩
      | none =>
          rw [List.getLast?_eq_none_iff] at hlast
          exact absurd (head_mem_ownRows hblock) (hlast ▸ List.not_mem_nil)
    obtain ⟨last, hlast⟩ := hlast
    have hopen : boundary ≠ .rightCensored := fun h => hbounded (hboundary.mp h)
    refine ⟨last, hlast, ?_, ?_⟩
    · show (if decide (boundary ≠ .rightCensored) = true then
        some ((openOf block).rows.getLast?.getD _).ns else none) = _
      rw [if_pos (decide_eq_true hopen), hrows, hlast]
      rfl
    · show (if decide (boundary ≠ .rightCensored) = true then
        some ((openOf block).rows.getLast?.getD _).sourceDataRow else none) = _
      rw [if_pos (decide_eq_true hopen), hrows, hlast]
      rfl

/-! ## All episodes of an interval -/

/-- The episode has ended before the other one starts. -/
def SchoedelEpisodeEvidence.EndsBefore (first second : SchoedelEpisodeEvidence) : Prop :=
  ∃ stopNs ∈ first.stopNs, ∃ stopRow ∈ first.stopSourceRow,
    stopNs < second.startNs ∨ stopNs = second.startNs ∧ stopRow < second.startSourceRow

/-- Every block is ready to be completed as it is. -/
structure ReadyBlocks (blocks : List LaunchBlock) : Prop where
  named : ∀ block ∈ blocks, block.Named RawB05AppEvent.launches
  ordered : (blocks.flatMap Block.elements).Pairwise fun a b => a.key < b.key
  distinct : ((blocks.flatMap Block.elements).map (·.sourceDataRow)).Nodup

variable {l : List LaunchBlock} {next : LaunchBlock}

theorem ReadyBlocks.tail (h : ReadyBlocks (block :: l)) : ReadyBlocks l := by
  obtain ⟨hnamed, hordered, hdistinct⟩ := h
  rw [List.flatMap_cons] at hordered hdistinct
  rw [List.map_append] at hdistinct
  exact ⟨fun other hother => hnamed other (List.mem_cons_of_mem _ hother),
    (List.pairwise_append.mp hordered).2.1, (List.nodup_append.mp hdistinct).2.1⟩

theorem ReadyBlocks.isEpisodeOf (h : ReadyBlocks (block :: l)) {boundary : SchoedelBoundary}
    {isLast : Bool}
    (hboundary : boundary = .rightCensored ↔ interval.rightCensored = true ∧ isLast = true) :
    IsEpisodeOf interval block isLast
      (completeSchoedelEpisode sha256 interval (openOf block) boundary) := by
  obtain ⟨hnamed, hordered, hdistinct⟩ := h
  rw [List.flatMap_cons] at hordered hdistinct
  rw [List.map_append] at hdistinct
  refine isEpisodeOf_complete (hnamed block List.mem_cons_self) ?_ ?_ hboundary
  · exact (List.pairwise_append.mp hordered).1.imp le_of_lt
  · exact (List.nodup_append.mp hdistinct).1

/-- The rows of a block come before the opener of any later one. -/
theorem ReadyBlocks.key_lt (h : ReadyBlocks (block :: l)) {row : RawB05AppEvent}
    (hrow : row ∈ block.elements) {other : LaunchBlock} (hother : other ∈ l) :
    row.key < other.head.key := by
  have hordered := h.ordered
  rw [List.flatMap_cons, List.pairwise_append] at hordered
  exact hordered.2.2 row hrow other.head
    (List.mem_flatMap.mpr ⟨other, hother, List.mem_cons_self⟩)

theorem lastBoundary_eq : lastBoundary interval = .rightCensored ↔
    interval.rightCensored = true ∧ true = true := by
  unfold lastBoundary
  cases interval.rightCensored <;> simp

theorem differentApp_eq : SchoedelBoundary.differentApp = .rightCensored ↔
    interval.rightCensored = true ∧ false = true := by simp

theorem length_blockEpisodes (l : List LaunchBlock) :
    (blockEpisodes sha256 interval l).length = l.length := by
  induction l with
  | nil => rfl
  | cons block l ih =>
      cases l with
      | nil => rfl
      | cons next rest => exact congrArg (· + 1) ih

/-- Each block has its episode, at the same place. -/
theorem getElem?_blockEpisodes (hready : ReadyBlocks l) {before after : List LaunchBlock}
    (hl : l = before ++ block :: after) :
    ∃ episode ∈ (blockEpisodes sha256 interval l)[before.length]?,
      IsEpisodeOf interval block after.isEmpty episode := by
  induction before generalizing l with
  | nil =>
      rw [List.nil_append] at hl
      subst hl
      cases after with
      | nil => exact ⟨_, rfl, hready.isEpisodeOf lastBoundary_eq⟩
      | cons next rest => exact ⟨_, rfl, hready.isEpisodeOf differentApp_eq⟩
  | cons first before ih =>
      subst hl
      obtain ⟨episode, hepisode, hof⟩ := ih (l := before ++ block :: after) hready.tail rfl
      cases hrest : before ++ block :: after with
      | nil => simp at hrest
      | cons next rest =>
          rw [hrest] at hepisode
          rw [List.cons_append, hrest]
          exact ⟨episode, hepisode, hof⟩

theorem exists_block_of_mem {episode : SchoedelEpisodeEvidence}
    (h : episode ∈ blockEpisodes sha256 interval l) :
    ∃ block ∈ l, episode.startNs = block.head.ns ∧
      episode.startSourceRow = block.head.sourceDataRow := by
  induction l with
  | nil => exact absurd h List.not_mem_nil
  | cons block l ih =>
      cases l with
      | nil =>
          rw [List.mem_singleton.mp h]
          exact ⟨block, List.mem_cons_self, rfl, rfl⟩
      | cons next rest =>
          rcases List.mem_cons.mp h with rfl | h
          · exact ⟨block, List.mem_cons_self, rfl, rfl⟩
          · obtain ⟨other, hother, hstart⟩ := ih h
            exact ⟨other, List.mem_cons_of_mem _ hother, hstart⟩

/-- The episodes of an interval do not overlap. -/
theorem pairwise_blockEpisodes (hready : ReadyBlocks l) :
    (blockEpisodes sha256 interval l).Pairwise SchoedelEpisodeEvidence.EndsBefore := by
  induction l with
  | nil => exact .nil
  | cons block l ih =>
      cases l with
      | nil => exact List.pairwise_singleton _ _
      | cons next rest =>
          refine List.pairwise_cons.mpr ⟨?_, ih hready.tail⟩
          intro second hsecond
          obtain ⟨other, hother, hns, hrow⟩ := exists_block_of_mem hsecond
          have hof : IsEpisodeOf interval block false
              (completeSchoedelEpisode sha256 interval (openOf block) .differentApp) :=
            hready.isEpisodeOf differentApp_eq
          -- the episode ends with a row of its own block, which precedes the next opener
          obtain ⟨last, hlast, hstopNs, hstopRow⟩ := hof.stop (by simp)
          refine ⟨last.ns, hstopNs, last.sourceDataRow, hstopRow, ?_⟩
          have hmem := List.mem_of_getLast? hlast
          have hkey := hready.key_lt (List.mem_of_mem_filter hmem) hother
          rw [hns, hrow]
          exact Prod.Lex.toLex_lt_toLex.mp hkey

end Episode

/-! ## The account of an interval -/

/-- The account of an interval. Its blocks hold the longest runs of openers of one package among its
rows, and each has its episode; the episodes do not overlap. Each opener without a package is an
issue, and so is an interval without an episode. -/
structure IntervalAccount (interval : ScreenIntervalEvidence) (members : List RawB05AppEvent)
    (blocks : List LaunchBlock) (episodes : List SchoedelEpisodeEvidence)
    (issues : List SchoedelIssue) : Prop where
  runs : blocks.map (Block.run RawB05AppEvent.launches) =
    (members.filter fun row => row.launches.isSome).splitBy fun a b => a.launches = b.launches
  covers : ∃ idle, (∀ row ∈ idle, row.launches = none) ∧
    members = idle ++ blocks.flatMap Block.elements
  named : ∀ block ∈ blocks, block.Named RawB05AppEvent.launches
  count : episodes.length = blocks.length
  episodeOf : ∀ before block after, blocks = before ++ block :: after →
    ∃ episode ∈ episodes[before.length]?, IsEpisodeOf interval block after.isEmpty episode
  disjoint : episodes.Pairwise SchoedelEpisodeEvidence.EndsBefore
  issues : issues = (members.filter (·.lacksPackage)).map (missingPackageIssue interval) ++
    if episodes = [] then
      [⟨interval.participantId, interval.screenIntervalId, none, .screenIntervalWithoutAppLaunch⟩]
    else []

section Account

variable {sha256 : List UInt8 → List UInt8} {input : BoundSchoedelProseInput}
variable {interval : ScreenIntervalEvidence}

theorem pairwise_members (hdistinct : ((input.members interval).map (·.sourceDataRow)).Nodup) :
    (input.members interval).Pairwise fun a b => a.key < b.key := by
  have hsorted : (input.members interval).Pairwise fun a b => a.key ≤ b.key :=
    (pairwise_sortByKey RawB05AppEvent.key _).filter _
  refine (hsorted.and (List.pairwise_map.mp hdistinct)).imp ?_
  intro a b h
  refine lt_of_le_of_ne h.1 fun hkey => h.2 ?_
  exact congrArg (fun key => (ofLex key).2) hkey

theorem readyBlocks_members (hdistinct : ((input.members interval).map (·.sourceDataRow)).Nodup) :
    ReadyBlocks (blocks RawB05AppEvent.launches none (input.members interval)) := by
  obtain ⟨idle, _, hmembers⟩ := exists_idle RawB05AppEvent.launches (input.members interval)
  have hordered := pairwise_members hdistinct
  rw [hmembers] at hordered hdistinct
  rw [List.map_append] at hdistinct
  exact ⟨fun block hblock => named_of_mem hblock, (List.pairwise_append.mp hordered).2.1,
    (List.nodup_append.mp hdistinct).2.1⟩

theorem intervalAccount_ofInterval
    (hdistinct : ((input.members interval).map (·.sourceDataRow)).Nodup) :
    IntervalAccount interval (input.members interval)
      (blocks RawB05AppEvent.launches none (input.members interval))
      (input.ofInterval sha256 interval).1 (input.ofInterval sha256 interval).2 := by
  have hready := readyBlocks_members hdistinct
  have hfound : reconstructSchoedelInterval sha256 interval (input.members interval) =
      (blockEpisodes sha256 interval
          (blocks RawB05AppEvent.launches none (input.members interval)),
        ((input.members interval).filter (·.lacksPackage)).map (missingPackageIssue interval)) :=
    reconstructSchoedelFrom_eq (input.members interval) none
      fun _ h => absurd h (Option.not_mem_none _)
  rw [BoundSchoedelProseInput.ofInterval, hfound]
  refine ⟨map_run_blocks RawB05AppEvent.launches _, exists_idle RawB05AppEvent.launches _,
    hready.named, length_blockEpisodes _, ?_, pairwise_blockEpisodes hready, ?_⟩
  · intro before block after hblocks
    exact getElem?_blockEpisodes hready hblocks
  · simp only [List.isEmpty_iff]

variable (sha256 input) in
/-- A reconstruction is executed or refused. -/
theorem executed_or_refused :
    (∃ decisiveCount,
      reconstructBoundSchoedelProse sha256 input = executedSchoedel sha256 input decisiveCount) ∨
    ∃ preserved decisiveCount reason detail, reconstructBoundSchoedelProse sha256 input =
      input.refusedSchoedel sha256 preserved decisiveCount reason detail := by
  unfold reconstructBoundSchoedelProse
  dsimp only
  split
  · exact .inr ⟨_, _, _, _, rfl⟩
  · split
    · exact .inr ⟨_, _, _, _, rfl⟩
    · split
      · exact .inr ⟨_, _, _, _, rfl⟩
      · split
        · exact .inr ⟨_, _, _, _, rfl⟩
        · split
          · exact .inr ⟨_, _, _, _, rfl⟩
          · exact .inl ⟨_, rfl⟩

/-- A reconstruction that is not refused is the executed one. -/
theorem eq_executedSchoedel
    (h : (reconstructBoundSchoedelProse sha256 input).applicability.executable = true) :
    ∃ decisiveCount,
      reconstructBoundSchoedelProse sha256 input = executedSchoedel sha256 input decisiveCount := by
  rcases executed_or_refused sha256 input with hexecuted | ⟨_, _, _, _, hrefused⟩
  · exact hexecuted
  · rw [hrefused] at h
    exact absurd h Bool.false_ne_true

theorem ofInterval_episodes (interval : ScreenIntervalEvidence) :
    (input.ofInterval sha256 interval).1 = blockEpisodes sha256 interval
      (blocks RawB05AppEvent.launches none (input.members interval)) :=
  congrArg Prod.fst (reconstructSchoedelFrom_eq (input.members interval) none
    fun _ h => absurd h (Option.not_mem_none _))

end Account

/-- A reconstruction that is not refused returns the episodes and issues of its intervals, and each
interval whose rows have different source rows is accounted for: its episodes are the longest runs
of openers of one package, each up to the last row of its package, and its issues are the openers
without a package and the lack of any episode. -/
theorem reconstructBoundSchoedelProse_accounts (sha256 : List UInt8 → List UInt8)
    (input : BoundSchoedelProseInput)
    (hexecutable : (reconstructBoundSchoedelProse sha256 input).applicability.executable = true)
    (hdistinct : ∀ interval ∈ input.screenIntervals,
      ((input.members interval).map (·.sourceDataRow)).Nodup) :
    ∃ found : ScreenIntervalEvidence → List SchoedelEpisodeEvidence × List SchoedelIssue,
      (reconstructBoundSchoedelProse sha256 input).episodes.Perm
          (input.screenIntervals.flatMap fun interval => (found interval).1) ∧
        (reconstructBoundSchoedelProse sha256 input).issues.Perm
          (input.screenIntervals.flatMap fun interval => (found interval).2) ∧
        ∀ interval ∈ input.screenIntervals, ∃ blocks,
          IntervalAccount interval (input.members interval) blocks (found interval).1
            (found interval).2 := by
  obtain ⟨decisiveCount, heq⟩ := eq_executedSchoedel hexecutable
  rw [heq]
  refine ⟨input.ofInterval sha256, ?_, ?_, ?_⟩
  · refine (perm_sortByKey _ _).trans ?_
    rw [List.flatMap_map]
    exact (perm_sortByKey _ _).flatMap_right _
  · refine (perm_sortByKey _ _).trans ?_
    rw [List.flatMap_map]
    exact (perm_sortByKey _ _).flatMap_right _
  · intro interval hinterval
    exact ⟨_, intervalAccount_ofInterval (hdistinct interval hinterval)⟩

/-! ## Rows that share a source row -/

/-- An opener of `app.a` at a time and a source row. -/
def openerRow (ns : Int) (sourceDataRow : Nat) : RawB05AppEvent :=
  { participantId := "P1"
    timestampNs := some ns
    sourceDataRow
    rawInteractionType := "Activity Resumed"
    signal := .activityResumed
    sourceDataRows := [sourceDataRow]
    packageName := some "app.a"
    appOpenerEligible := true }

/-- The screen is on from 0 to 100. -/
def screenOnInterval : ScreenIntervalEvidence where
  screenIntervalId := "screen-1"
  participantId := "P1"
  strategyId := .zhu2018UnlockLockV1
  kind := .session
  startNs := 0
  stopNs := some 100
  startBoundarySourceRow := 1
  stopBoundarySourceRow := some 9
  startSourceRows := [1]
  stopSourceRows := [9]
  closeReason := .screenNonInteractive
  leftCensored := false
  rightCensored := false

/-- Openers within that interval. -/
def openersInput (events : List RawB05AppEvent) : BoundSchoedelProseInput where
  rawEvents := events
  screenIntervals := [screenOnInterval]
  selectedB05StrategyId := .zhu2018UnlockLockV1
  equalTimestampSourceOrderPreserved := true
  sourceOrderResolution := none

theorem reconstructBoundSchoedelProse_accounts_two :
    ∃ found : ScreenIntervalEvidence → List SchoedelEpisodeEvidence × List SchoedelIssue,
      (reconstructBoundSchoedelProse Sha256.sha256
          (openersInput [openerRow 10 5, openerRow 20 6])).episodes.Perm
          ([screenOnInterval].flatMap fun interval => (found interval).1) ∧
        ∀ interval ∈ [screenOnInterval], ∃ blocks,
          IntervalAccount interval
            ((openersInput [openerRow 10 5, openerRow 20 6]).members interval) blocks
            (found interval).1 (found interval).2 := by
  obtain ⟨found, hepisodes, _, haccount⟩ := reconstructBoundSchoedelProse_accounts Sha256.sha256
    (openersInput [openerRow 10 5, openerRow 20 6]) (by decide) (by decide)
  exact ⟨found, hepisodes, haccount⟩

/-- Two openers of one source row count as one: the episode ends with the first of them, and not
with the last row of its package in the interval. -/
theorem episode_of_shared_source_row :
    (reconstructBoundSchoedelProse Sha256.sha256
        (openersInput [openerRow 10 5, openerRow 20 5])).applicability.executable = true ∧
      ((reconstructBoundSchoedelProse Sha256.sha256
        (openersInput [openerRow 10 5, openerRow 20 5])).episodes.map fun episode =>
          (episode.packageName, episode.startNs, episode.stopNs)) = [("app.a", 10, some 10)] ∧
      (((openersInput [openerRow 10 5, openerRow 20 5]).members screenOnInterval).map fun row =>
        (row.launches, row.ns)) = [(some "app.a", 10), (some "app.a", 20)] := by
  refine ⟨by decide, by decide, by decide⟩

end Chronicle.Screens
