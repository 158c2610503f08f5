import Chronicle.Eyes.Blocks
import Chronicle.Library.Holes

/-!
# Pickups are the holes of the blocks

The ACTIVE rows of the pickup export fill the holes of the union of the paired blocks that are long
enough. The walk carries the greatest end, so a nested block opens no hole.
-/

namespace Chronicle.Eyes

open Chronicle.Library Chronicle.Library.Intervals Chronicle.Library.Machine
  Chronicle.Library.StableSort

/-- The ends of the paired blocks. -/
def pairedSpans (blocks : List EyesBlock) : List (Int × Int) := blocks.filterMap EyesBlock.paired

/-- The paired blocks in order. -/
def usableBlocks (blocks : List EyesBlock) : List TimedBlock :=
  sortByKey TimedBlock.key <| blocks.filterMap fun block =>
    block.paired.map fun (start, stop) => ⟨start, stop, block.blockType⟩

/-- The ends of a block. -/
def TimedBlock.span (block : TimedBlock) : Int × Int := (block.startNs, block.endNs)

/-- The row that fills a hole. -/
def activeRow (hole : Int × Int) : EyesPickupRow := ⟨.active, hole.1, hole.2⟩

variable {blocks : List EyesBlock} {options : EyesOptions}

theorem mem_span_usableBlocks {span : Int × Int} :
    span ∈ (usableBlocks blocks).map TimedBlock.span ↔ span ∈ pairedSpans blocks := by
  simp only [usableBlocks, pairedSpans, List.mem_map, mem_sortByKey, List.mem_filterMap,
    TimedBlock.span]
  constructor
  · rintro ⟨_, ⟨block, hblock, hpaired⟩, rfl⟩
    obtain ⟨span, hspan, rfl⟩ := Option.map_eq_some_iff.mp hpaired
    exact ⟨block, hblock, hspan⟩
  · rintro ⟨block, hblock, hpaired⟩
    exact ⟨_, ⟨block, hblock, by rw [hpaired]; rfl⟩, rfl⟩

theorem pairwise_span_usableBlocks :
    ((usableBlocks blocks).map TimedBlock.span).Pairwise fun i j => i.1 ≤ j.1 := by
  refine List.pairwise_map.mpr ((pairwise_sortByKey TimedBlock.key _).imp fun {a b} hkey => ?_)
  obtain hlt | ⟨heq, -⟩ := Prod.Lex.le_iff.mp hkey
  · exact hlt.le
  · exact heq.le

theorem pairedSpans_positive {span : Int × Int} (h : span ∈ pairedSpans blocks) :
    span.1 < span.2 := by
  obtain ⟨block, -, hpaired⟩ := List.mem_filterMap.mp h
  exact (EyesBlock.paired_eq_some.mp hpaired).2.2

/-! ## The walk -/

section Walk

variable {usable : List TimedBlock} {holeNs reach : Int}

/-- The row is ACTIVE. -/
def EyesPickupRow.isActive (row : EyesPickupRow) : Bool := row.blockType = .active

/-- The walk writes an ACTIVE row for every hole that reaches the threshold. -/
theorem active_pickupRowsFrom (hhole : 0 < holeNs)
    (hblocks : ∀ block ∈ usable, block.blockType ≠ .active)
    (hfits : ∀ block ∈ usable, ∀ stop ∈ reach :: usable.map TimedBlock.endNs,
      Fits64 (block.startNs - stop)) :
    (pickupRowsFrom holeNs usable (some reach)).filter EyesPickupRow.isActive =
      ((holesFrom reach (usable.map TimedBlock.span)).filter
        fun hole => holeNs ≤ hole.2 - hole.1).map activeRow := by
  induction usable generalizing reach with
  | nil => rfl
  | cons block usable ih =>
      have hwrap : wrap64 (block.startNs - reach) = block.startNs - reach :=
        wrap64_of_fits (hfits block List.mem_cons_self reach List.mem_cons_self)
      have hself : EyesPickupRow.isActive ⟨block.blockType, block.startNs, block.endNs⟩ = false :=
        decide_eq_false (hblocks block List.mem_cons_self)
      have hlater := @ih (max reach block.endNs)
        (fun other hother => hblocks other (List.mem_cons_of_mem block hother)) ?_
      · rw [pickupRowsFrom, List.map_cons, holesFrom, List.filter_append, List.filter_append,
          List.map_append, List.filter_cons_of_neg (by rw [hself]; exact Bool.false_ne_true),
          Option.elim_some, hlater]
        congr 1
        simp only [hwrap, TimedBlock.span]
        by_cases hlong : holeNs ≤ block.startNs - reach
        · have hlt : reach < block.startNs := by omega
          simp [hlong, hlt, EyesPickupRow.isActive, activeRow]
        · by_cases hlt : reach < block.startNs
          · simp [hlong, hlt]
          · simp [hlong, hlt]
      · intro other hother stop hstop
        refine hfits other (List.mem_cons_of_mem block hother) stop ?_
        obtain rfl | hstop := List.mem_cons.mp hstop
        · obtain hmax | hmax := max_choice reach block.endNs
          · rw [hmax]
            exact List.mem_cons_self
          · rw [hmax]
            exact List.mem_cons_of_mem _ List.mem_cons_self
        · exact List.mem_cons_of_mem _ (List.mem_cons_of_mem _ hstop)

end Walk

/-! ## The export -/

/-- The hole reaches the threshold, and in whole seconds the floor. -/
def longEnough (options : EyesOptions) (hole : Int × Int) : Bool :=
  secondsToNs options.pickupActiveHoleSeconds ≤ hole.2 - hole.1 ∧
    options.pickupMinimumSeconds.truncToI64 ≤ (hole.2 - hole.1).tdiv 1000000000

/-- The ends of the paired blocks lie less than `2 ^ 63` nanoseconds apart. -/
def SpanFits (blocks : List EyesBlock) : Prop :=
  ∀ first ∈ pairedSpans blocks, ∀ last ∈ pairedSpans blocks, last.2 - first.1 < 2 ^ 63

theorem SpanFits.fits (h : SpanFits blocks) {first last : Int × Int}
    (hfirst : first ∈ pairedSpans blocks) (hlast : last ∈ pairedSpans blocks) :
    Fits64 (first.1 - last.2) := by
  have hforth := h first hfirst last hlast
  have hback := h last hlast first hfirst
  have hpositive := pairedSpans_positive hfirst
  have hpositive' := pairedSpans_positive hlast
  rw [fits64_iff]
  omega

/-- The ACTIVE rows are the holes that are long enough. -/
theorem active_buildPickupExport
    (hactive : ∀ block ∈ blocks, block.paired.isSome → block.blockType ≠ .active)
    (hhole : 0 < secondsToNs options.pickupActiveHoleSeconds) (hspan : SpanFits blocks) :
    (buildPickupExport blocks options).filter EyesPickupRow.isActive =
      ((holes ((usableBlocks blocks).map TimedBlock.span)).filter (longEnough options)).map
        activeRow := by
  have hblocks : ∀ block ∈ usableBlocks blocks, block.blockType ≠ .active := by
    intro block hblock
    obtain ⟨source, hsource, hpaired⟩ := List.mem_filterMap.mp (mem_sortByKey.mp hblock)
    obtain ⟨span, hspan, rfl⟩ := Option.map_eq_some_iff.mp hpaired
    exact hactive source hsource (by rw [hspan]; rfl)
  have hmem : ∀ block ∈ usableBlocks blocks, block.span ∈ pairedSpans blocks := fun block hblock =>
    mem_span_usableBlocks.mp (List.mem_map_of_mem hblock)
  have hwalk : (pickupRowsFrom (secondsToNs options.pickupActiveHoleSeconds) (usableBlocks blocks)
      none).filter EyesPickupRow.isActive =
      ((holes ((usableBlocks blocks).map TimedBlock.span)).filter fun hole =>
        secondsToNs options.pickupActiveHoleSeconds ≤ hole.2 - hole.1).map activeRow := by
    revert hblocks hmem
    generalize usableBlocks blocks = usable
    intro hblocks hmem
    cases usable with
    | nil => rfl
    | cons first usable =>
        have hself : EyesPickupRow.isActive ⟨first.blockType, first.startNs, first.endNs⟩ = false :=
          decide_eq_false (hblocks first List.mem_cons_self)
        rw [pickupRowsFrom, List.nil_append,
          List.filter_cons_of_neg (by rw [hself]; exact Bool.false_ne_true), Option.elim_none,
          active_pickupRowsFrom hhole
            (fun block hblock => hblocks block (List.mem_cons_of_mem first hblock)) ?_]
        · rfl
        · intro block hblock stop hstop
          have hstart := hmem block (List.mem_cons_of_mem first hblock)
          obtain rfl | hstop := List.mem_cons.mp hstop
          · exact hspan.fits hstart (hmem first List.mem_cons_self)
          · obtain ⟨other, hother, rfl⟩ := List.mem_map.mp hstop
            exact hspan.fits hstart (hmem other (List.mem_cons_of_mem first hother))
  -- the length of a hole fits, so that the floor is applied to it as it is
  have hlength : ∀ hole ∈ holes ((usableBlocks blocks).map TimedBlock.span),
      wrap64 (hole.2 - hole.1) = hole.2 - hole.1 := by
    intro hole hmem
    obtain ⟨⟨i, hi, hbegin⟩, j, hj, hend⟩ :=
      exists_ends_of_mem_holes (a := hole.1) (b := hole.2) pairwise_span_usableBlocks hmem
    rw [← hbegin, ← hend]
    exact wrap64_of_fits (hspan.fits (mem_span_usableBlocks.mp hj) (mem_span_usableBlocks.mp hi))
  have hexport : buildPickupExport blocks options =
      (pickupRowsFrom (secondsToNs options.pickupActiveHoleSeconds) (usableBlocks blocks) none).filter
        fun row => row.durationNs.tdiv 1000000000 ≥ options.pickupMinimumSeconds.truncToI64 := rfl
  rw [hexport, List.filter_comm, hwalk, List.filter_map, List.filter_filter]
  congr 1
  refine List.filter_congr fun hole hmem => ?_
  simp only [Function.comp_apply, activeRow, EyesPickupRow.durationNs, hlength hole hmem, longEnough,
    ge_iff_le, Bool.decide_and, Bool.and_comm]

/-- The ACTIVE rows stand in order and are the maximal holes of the union of the paired blocks that
are long enough; none of them overlaps a paired block. -/
theorem active_rows_maximalHoles
    (hactive : ∀ block ∈ blocks, block.paired.isSome → block.blockType ≠ .active)
    (hhole : 0 < secondsToNs options.pickupActiveHoleSeconds) (hspan : SpanFits blocks) :
    ((buildPickupExport blocks options).filter EyesPickupRow.isActive).Pairwise
        (fun row later => row.endNs ≤ later.startNs) ∧
      (∀ a b, ⟨.active, a, b⟩ ∈ buildPickupExport blocks options ↔
        MaximalHole (pairedSpans blocks) a b ∧ longEnough options (a, b)) ∧
      ∀ row ∈ buildPickupExport blocks options, row.isActive →
        ∀ span ∈ pairedSpans blocks, row.endNs ≤ span.1 ∨ span.2 ≤ row.startNs := by
  have hrows := active_buildPickupExport hactive hhole hspan
  have hpositive : ∀ i ∈ (usableBlocks blocks).map TimedBlock.span, i.1 < i.2 := fun i hi =>
    pairedSpans_positive (mem_span_usableBlocks.mp hi)
  have hmem : ∀ a b, ⟨.active, a, b⟩ ∈ buildPickupExport blocks options ↔
      MaximalHole (pairedSpans blocks) a b ∧ longEnough options (a, b) := by
    intro a b
    have hfilter : (⟨.active, a, b⟩ : EyesPickupRow) ∈ buildPickupExport blocks options ↔
        ⟨.active, a, b⟩ ∈ (buildPickupExport blocks options).filter EyesPickupRow.isActive :=
      (List.mem_filter.trans (and_iff_left rfl)).symm
    rw [hfilter, hrows, ← maximalHole_congr fun _ => mem_span_usableBlocks,
      ← mem_holes_iff pairwise_span_usableBlocks hpositive, ← List.mem_filter]
    refine ⟨fun h => ?_, fun h => List.mem_map.mpr ⟨(a, b), h, rfl⟩⟩
    obtain ⟨hole, hhole, heq⟩ := List.mem_map.mp h
    cases heq
    exact hhole
  refine ⟨?_, hmem, ?_⟩
  · rw [hrows]
    have hordered := (inOrder_holes pairwise_span_usableBlocks hpositive).disjoint
    exact List.pairwise_map.mpr (hordered.filter _)
  · rintro ⟨blockType, a, b⟩ hrow hactiveRow span hmemSpan
    obtain rfl : blockType = .active := of_decide_eq_true hactiveRow
    exact ((hmem a b).mp hrow).1.hole.apart hmemSpan (pairedSpans_positive hmemSpan)

/-- A nested block, and a hole of twenty seconds. -/
def pickupBlocks : List EyesBlock :=
  [⟨.shutdown, some 0, some 20000000000⟩, ⟨.idle, some 5000000000, some 10000000000⟩,
    ⟨.gap, some 40000000000, some 50000000000⟩]

theorem active_rows_pickupBlocks :
    ((buildPickupExport pickupBlocks .default).filter EyesPickupRow.isActive).Pairwise
        (fun row later => row.endNs ≤ later.startNs) ∧
      (∀ a b, ⟨.active, a, b⟩ ∈ buildPickupExport pickupBlocks .default ↔
        MaximalHole (pairedSpans pickupBlocks) a b ∧ longEnough .default (a, b)) ∧
      ∀ row ∈ buildPickupExport pickupBlocks .default, row.isActive →
        ∀ span ∈ pairedSpans pickupBlocks, row.endNs ≤ span.1 ∨ span.2 ≤ row.startNs := by
  refine active_rows_maximalHoles (by decide) (by decide +kernel) ?_
  have hspans : pairedSpans pickupBlocks =
      [(0, 20000000000), (5000000000, 10000000000), (40000000000, 50000000000)] := by decide
  rw [SpanFits, hspans]
  decide

/-- The default options with another hole threshold and no floor. -/
def holeOptions (seconds : Binary64) : EyesOptions :=
  { EyesOptions.default with
    pickupActiveHoleSeconds := seconds
    pickupMinimumSeconds := .finite 0 }

/-- A block of five centuries, and one nested in it. -/
def wideBlocks : List EyesBlock :=
  [⟨.gap, some (-9000000000000000000), some 9000000000000000000⟩,
    ⟨.shutdown, some (-8000000000000000000), some (-7000000000000000000)⟩]

/-- An ACTIVE block is itself a row; a threshold of zero opens an empty hole where blocks touch; and
a difference that does not fit opens a hole at a nested block. -/
theorem active_rows_of_active_and_touching :
    (⟨.active, 0, 10⟩ ∈ buildPickupExport [⟨.active, some 0, some 10⟩] (holeOptions (.finite 5)) ∧
      ¬MaximalHole (pairedSpans [⟨.active, some 0, some 10⟩]) 0 10) ∧
    (⟨.active, 10, 10⟩ ∈ buildPickupExport [⟨.gap, some 0, some 10⟩, ⟨.gap, some 10, some 20⟩]
        (holeOptions (.finite 0)) ∧
      ¬MaximalHole (pairedSpans [⟨.gap, some 0, some 10⟩, ⟨.gap, some 10, some 20⟩]) 10 10) ∧
    ⟨.active, 9000000000000000000, -8000000000000000000⟩ ∈ buildPickupExport wideBlocks .default ∧
      ¬MaximalHole (pairedSpans wideBlocks) 9000000000000000000 (-8000000000000000000) := by
  refine ⟨⟨by decide +kernel, fun h => ?_⟩, ⟨by decide +kernel, fun h => ?_⟩, by decide +kernel,
    fun h => ?_⟩
  · exact h.hole.uncovered 0 le_rfl (by decide) ⟨(0, 10), by decide, by decide⟩
  · exact absurd h.hole.positive (by decide)
  · exact absurd h.hole.positive (by decide)

end Chronicle.Eyes
