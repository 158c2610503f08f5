import Mathlib.Data.Set.Basic
import Chronicle.Eyes.Reconciliation

/-!
# The shape of the device-state blocks

Every endpoint of a block is the instant of an event. With the production thresholds a gap segment
lasts at least one second, and one that is reconciled lasts more than the tolerance; so a backfilled
bracket runs forward. In the final set no block is typed ACTIVE, only SHUTDOWN blocks are partial,
and only they may have no length.
-/

namespace Chronicle.Eyes

open Chronicle.Library Chronicle.Library.Machine Chronicle.Library.StableSort

/-- The differences of the instants are all representable. -/
def Comparable (instants : Set Int) : Prop := ∀ a ∈ instants, ∀ b ∈ instants, Fits64 (a - b)

variable {instants : Set Int}

theorem Comparable.wrap_sub (h : Comparable instants) {a b : Int} (ha : a ∈ instants)
    (hb : b ∈ instants) : wrap64 (a - b) = a - b :=
  wrap64_of_fits (h a ha b hb)

theorem Comparable.wrapAbs_sub (h : Comparable instants) {a b : Int} (ha : a ∈ instants)
    (hb : b ∈ instants) : wrapAbs64 (wrap64 (a - b)) = max (a - b) (b - a) := by
  rw [h.wrap_sub ha hb, wrapAbs64_of_fits (h a ha b hb) (by rw [neg_sub]; exact h b hb a ha), neg_sub]

/-- A bracket block of a type: at least one endpoint, and a pair runs forward, strictly unless the
type is SHUTDOWN. -/
structure BracketBlock (instants : Set Int) (blockType : EyesBlockType) (block : EyesBlock) :
    Prop where
  typed : block.blockType = blockType
  starts : ∀ start ∈ block.startNs, start ∈ instants
  stops : ∀ stop ∈ block.endNs, stop ∈ instants
  bounded : block.startNs ≠ none ∨ block.endNs ≠ none
  forward : ∀ start ∈ block.startNs, ∀ stop ∈ block.endNs,
    start < stop ∨ blockType = .shutdown ∧ start = stop

/-- A gap block, possibly relabelled: both endpoints, at least a second apart. -/
structure GapBlock (instants : Set Int) (block : EyesBlock) : Prop where
  typed : block.blockType ≠ .active
  bounds : ∃ start ∈ instants, ∃ stop ∈ instants, block.startNs = some start ∧
    block.endNs = some stop ∧ 1000000000 ≤ stop - start

/-- A block of the final set. -/
structure SetBlock (instants : Set Int) (block : EyesBlock) : Prop where
  inactive : block.blockType ≠ .active
  starts : ∀ start ∈ block.startNs, start ∈ instants
  stops : ∀ stop ∈ block.endNs, stop ∈ instants
  bounded : block.startNs ≠ none ∨ block.endNs ≠ none
  partials : block.startNs = none ∨ block.endNs = none → block.blockType = .shutdown
  forward : ∀ start ∈ block.startNs, ∀ stop ∈ block.endNs,
    start < stop ∨ block.blockType = .shutdown ∧ start = stop

/-! ## Brackets -/

theorem mem_gluePairwise {glueNs : Int} {stream : List (Int × BracketRole)}
    (h : ∀ entry ∈ stream, entry.1 ∈ instants) :
    ∀ entry ∈ gluePairwise glueNs stream, entry.1 ∈ instants := by
  fun_induction gluePairwise glueNs stream with
  | case1 => simp
  | case2 entry => exact h
  | case3 timestamp role nextTimestamp nextRole rest delta hglued ih =>
      simp only [List.forall_mem_cons] at h ⊢
      refine ⟨?_, ih h.2.2⟩
      cases role with
      | opening => exact h.2.1
      | closing => exact h.1
  | case4 timestamp role nextTimestamp nextRole rest delta hapart ih =>
      simp only [List.forall_mem_cons] at h ih ⊢
      exact ⟨h.1, ih h.2⟩

theorem bracketBlock_start {blockType : EyesBlockType} {start : Int} (h : start ∈ instants) :
    BracketBlock instants blockType ⟨blockType, some start, none⟩ :=
  ⟨rfl, by simpa using h, by simp, by simp, by simp⟩

theorem bracketBlock_stop {blockType : EyesBlockType} {stop : Int} (h : stop ∈ instants) :
    BracketBlock instants blockType ⟨blockType, none, some stop⟩ :=
  ⟨rfl, by simp, by simpa using h, by simp, by simp⟩

/-- Brackets built from a stream of instants are bracket blocks. -/
theorem buildBracketBlocks_shape {blockType : EyesBlockType} {strictly : Bool}
    (hstrict : strictly = true ∨ blockType = .shutdown) {stream : List (Int × BracketRole)}
    {pending : Option Int} (hstream : ∀ entry ∈ stream, entry.1 ∈ instants)
    (hpending : ∀ start ∈ pending, start ∈ instants) :
    ∀ block ∈ buildBracketBlocks blockType strictly stream pending,
      BracketBlock instants blockType block := by
  fun_induction buildBracketBlocks blockType strictly stream pending with
  | case1 => simp
  | case2 start => simpa using bracketBlock_start (hpending start rfl)
  | case3 timestamp rest pending ih =>
      simp only [List.forall_mem_cons] at hstream
      have hrest := ih hstream.2 (by simpa using hstream.1)
      intro block hblock
      rcases List.mem_append.mp hblock with hblock | hblock
      · cases pending with
        | none => simp at hblock
        | some previous =>
            rw [List.mem_singleton.mp hblock]
            exact bracketBlock_start (hpending previous rfl)
      · exact hrest block hblock
  | case4 timestamp rest pending pairs hpairs ih =>
      simp only [List.forall_mem_cons] at hstream ⊢
      refine ⟨⟨rfl, hpending, by simpa using hstream.1, by simp, ?_⟩, ih hstream.2 (by simp)⟩
      rintro start hstart stop hstop
      obtain rfl := Option.some.inj hstop
      rw [Option.mem_def] at hstart
      subst hstart
      rcases hstrict with rfl | rfl
      · exact Or.inl (by simpa [pairs] using hpairs)
      · refine (lt_or_eq_of_le ?_).imp_right fun heq => ⟨rfl, heq⟩
        cases strictly
        · simpa [pairs] using hpairs
        · exact le_of_lt (by simpa [pairs] using hpairs)
  | case5 timestamp rest pending pairs hpairs ih =>
      simp only [List.forall_mem_cons] at hstream ⊢
      exact ⟨bracketBlock_stop hstream.1, ih hstream.2 hpending⟩

/-- The stream of a bracket carries instants of events. -/
theorem mem_bracketStream {events : List (EyesEvent × EyesSignal)} {opens closes : EyesSignal → Bool}
    (h : ∀ entry ∈ events, entry.1.timestampNs ∈ instants) :
    ∀ entry ∈ bracketStream events opens closes, entry.1 ∈ instants := by
  intro entry hentry
  obtain ⟨⟨event, signal⟩, hevent, heq⟩ := List.mem_filterMap.mp hentry
  have hinstant := h _ hevent
  dsimp only at heq
  split at heq
  · exact Option.some.inj heq ▸ hinstant
  · split at heq
    · exact Option.some.inj heq ▸ hinstant
    · cases heq

/-! ## Gaps -/

/-- A gap segment joins two instants at least a second apart. -/
def GapSegment (instants : Set Int) (segment : Int × Int) : Prop :=
  segment.1 ∈ instants ∧ segment.2 ∈ instants ∧ 1000000000 ≤ segment.2 - segment.1

theorem pushGapSegment_shape {segments : List (Int × Int)} {start stop : Int}
    (h : ∀ segment ∈ segments, GapSegment instants segment) (hnew : GapSegment instants (start, stop)) :
    ∀ segment ∈ pushGapSegment segments start stop, GapSegment instants segment := by
  have happend : ∀ segment ∈ segments ++ [(start, stop)], GapSegment instants segment := by
    intro segment hsegment
    rcases List.mem_append.mp hsegment with hsegment | hsegment
    · exact h segment hsegment
    · exact List.mem_singleton.mp hsegment ▸ hnew
  unfold pushGapSegment
  split
  · exact h
  · cases hlast : segments.getLast? with
    | none => exact happend
    | some last =>
        obtain ⟨hstart, hstop, hlong⟩ := h last (List.mem_of_getLast? hlast)
        dsimp only
        split
        · split
          · -- the last segment grows
            rename_i hlonger
            intro segment hsegment
            rcases List.mem_append.mp hsegment with hsegment | hsegment
            · exact h segment (List.mem_of_mem_dropLast hsegment)
            · rw [List.mem_singleton.mp hsegment]
              exact ⟨hstart, hnew.2.1, by dsimp only; omega⟩
          · exact h
        · exact happend

variable {events : List (EyesEvent × EyesSignal)}

theorem instantAt_mem (h : ∀ entry ∈ events, entry.1.timestampNs ∈ instants) {index : Nat}
    {entry : EyesEvent × EyesSignal} (hentry : events[index]? = some entry) :
    instantAt events index = entry.1.timestampNs ∧ entry.1.timestampNs ∈ instants := by
  refine ⟨?_, h entry (List.mem_of_getElem? hentry)⟩
  rw [instantAt, hentry]
  rfl

theorem farAfter_eq_some {neighbourNs timestamp : Int} {index far : Nat}
    (h : farAfter events neighbourNs index timestamp = some far) :
    index < far ∧ ∃ entry, events[far]? = some entry ∧
      neighbourNs ≤ wrap64 (entry.1.timestampNs - timestamp) := by
  obtain ⟨hmap, hlt⟩ := Option.filter_eq_some_iff.mp h
  obtain ⟨offset, hfind, rfl⟩ := Option.map_eq_some_iff.mp hmap
  obtain ⟨hoffset, hfar, -⟩ := List.findIdx?_eq_some_iff_getElem.mp hfind
  refine ⟨by simpa using hlt, (events.drop index)[offset], ?_, by simpa using hfar⟩
  rw [← List.getElem?_drop, List.getElem?_eq_getElem hoffset]

theorem farBefore_eq_some {neighbourNs timestamp : Int} {index far : Nat}
    (hindex : index < events.length) (h : farBefore events neighbourNs index timestamp = some far) :
    far < index ∧ ∃ entry, events[far]? = some entry ∧
      neighbourNs ≤ wrap64 (timestamp - entry.1.timestampNs) := by
  obtain ⟨hmap, hlt⟩ := Option.filter_eq_some_iff.mp h
  obtain ⟨offset, hfind, rfl⟩ := Option.map_eq_some_iff.mp hmap
  obtain ⟨hoffset, hfar, -⟩ := List.findIdx?_eq_some_iff_getElem.mp hfind
  refine ⟨by simpa using hlt, (events.take (index + 1)).reverse[offset], ?_, by simpa using hfar⟩
  rw [← List.getElem?_eq_getElem hoffset]
  simp only [List.length_reverse, List.length_take] at hoffset
  rw [List.getElem?_reverse (by simpa using hoffset), List.length_take, List.getElem?_take]
  have hmin : min (index + 1) events.length = index + 1 := by omega
  rw [hmin, if_pos (by omega)]
  congr 1

/-- With thresholds of at least a second, every gap segment is one. -/
theorem gapLoop_shape (hcomparable : Comparable instants)
    (hevents : ∀ entry ∈ events, entry.1.timestampNs ∈ instants) {silenceNs neighbourNs : Int}
    (hsilence : 1000000000 ≤ silenceNs) (hneighbour : 1000000000 ≤ neighbourNs) {fuel index : Nat}
    {previous : Option Int} {segments : List (Int × Int)}
    (hprevious : ∀ instant ∈ previous, instant ∈ instants)
    (hsegments : ∀ segment ∈ segments, GapSegment instants segment) :
    ∀ segment ∈ gapLoop events silenceNs neighbourNs fuel index previous segments,
      GapSegment instants segment := by
  induction fuel generalizing index previous segments with
  | zero => exact hsegments
  | succ fuel ih =>
      unfold gapLoop
      cases hentry : events[index]? with
      | none => exact hsegments
      | some entry =>
          obtain ⟨event, signal⟩ := entry
          have hinstant : event.timestampNs ∈ instants := hevents _ (List.mem_of_getElem? hentry)
          have hnow : ∀ instant ∈ some event.timestampNs, instant ∈ instants := by simpa using hinstant
          -- the instants are near enough that their difference does not wrap
          have hsegment : ∀ {a b : Int}, a ∈ instants → b ∈ instants →
              neighbourNs ≤ wrap64 (b - a) → GapSegment instants (a, b) := by
            intro a b ha hb hlong
            rw [hcomparable.wrap_sub hb ha] at hlong
            exact ⟨ha, hb, hneighbour.trans hlong⟩
          cases previous with
          | none => exact ih hnow hsegments
          | some previousTimestamp =>
              have hold := hprevious previousTimestamp rfl
              dsimp only
              split
              · rename_i hlong
                rw [hcomparable.wrap_sub hinstant hold] at hlong
                exact ih hnow (pushGapSegment_shape hsegments
                  ⟨hold, hinstant, hsilence.trans hlong⟩)
              · split
                · split
                  · rename_i far hfar
                    obtain ⟨-, entry, hentry', hlong⟩ := farAfter_eq_some hfar
                    obtain ⟨heq, hmem⟩ := instantAt_mem hevents hentry'
                    exact ih hnow (pushGapSegment_shape hsegments
                      (heq ▸ hsegment hinstant hmem hlong))
                  · exact ih hnow hsegments
                · split
                  · split
                    · rename_i far hfar
                      obtain ⟨-, entry, hentry', hlong⟩ := farBefore_eq_some
                        (List.getElem?_eq_some_iff.mp hentry).1 hfar
                      obtain ⟨heq, hmem⟩ := instantAt_mem hevents hentry'
                      exact ih hnow (pushGapSegment_shape hsegments
                        (heq ▸ hsegment hmem hinstant hlong))
                    · exact ih hnow hsegments
                  · exact ih hnow hsegments

theorem GapSegment.gapBlock {segment : Int × Int} (h : GapSegment instants segment) :
    GapBlock instants ⟨.gap, some segment.1, some segment.2⟩ :=
  ⟨by simp, segment.1, h.1, segment.2, h.2.1, rfl, rfl, h.2.2⟩

/-! ## Glances -/

/-- Every glance joins two instants and runs forward. -/
theorem glanceBlocksFrom_shape {stream : List GlanceEntry} {pendingStart : Option Int}
    (hstream : ∀ entry ∈ stream, entry.timestamp ∈ instants)
    (hpending : ∀ start ∈ pendingStart, start ∈ instants) :
    ∀ block ∈ glanceBlocksFrom stream pendingStart, ∃ start ∈ instants, ∃ stop ∈ instants,
      block = ⟨.glance, some start, some stop⟩ ∧ start < stop := by
  induction stream generalizing pendingStart with
  | nil => simp [glanceBlocksFrom]
  | cons entry rest ih =>
      obtain ⟨hentry, hrest⟩ := List.forall_mem_cons.mp hstream
      unfold glanceBlocksFrom
      cases entry.glanceSignal with
      | wake => exact ih hrest (by simpa using hentry)
      | unlock =>
          refine ih hrest fun start hstart => ?_
          split at hstart
          · cases hstart
          · exact hpending start hstart
      | sleep =>
          intro block hblock
          rcases List.mem_append.mp hblock with hblock | hblock
          · cases pendingStart with
            | none => simp at hblock
            | some start =>
                dsimp only at hblock
                split at hblock
                · rename_i hlater
                  exact ⟨start, hpending start rfl, entry.timestamp, hentry,
                    List.mem_singleton.mp hblock, hlater⟩
                · simp at hblock
          · exact ih hrest (by simp) block hblock
      | cancel => exact ih hrest (by simp)

theorem mem_glanceStream (hevents : ∀ entry ∈ events, entry.1.timestampNs ∈ instants)
    {gapSegments : List (Int × Int)} (hgaps : ∀ segment ∈ gapSegments, segment.1 ∈ instants) :
    ∀ entry ∈ glanceStream events gapSegments, entry.timestamp ∈ instants := by
  intro entry hentry
  rcases List.mem_append.mp (mem_sortByKey.mp hentry) with hentry | hentry
  · obtain ⟨⟨⟨event, signal⟩, order⟩, hmem, heq⟩ := List.mem_filterMap.mp hentry
    obtain ⟨source, -, rfl⟩ := Option.map_eq_some_iff.mp heq
    exact hevents _ (List.fst_mem_of_mem_zipIdx hmem)
  · obtain ⟨⟨⟨start, stop⟩, index⟩, hmem, rfl⟩ := List.mem_map.mp hentry
    exact hgaps _ (List.fst_mem_of_mem_zipIdx hmem)

/-! ## Reconciliation -/

/-- A gap that is not passed over lasts more than the tolerance by at least a second. -/
theorem long_of_not_skippable (hcomparable : Comparable instants) {gap : EyesBlock}
    (hgap : GapBlock instants gap) {toleranceNs : Int} (htolerance : toleranceNs = 10000000000)
    (hskip : ¬ skippable toleranceNs gap = true) {start stop : Int} (hstart : gap.startNs = some start)
    (hstop : gap.endNs = some stop) : 11000000000 ≤ stop - start := by
  obtain ⟨start', hmem, stop', hmem', hstart', hstop', hlong⟩ := hgap.bounds
  obtain rfl : start = start' := Option.some.inj (hstart.symm.trans hstart')
  obtain rfl : stop = stop' := Option.some.inj (hstop.symm.trans hstop')
  simp only [skippable, EyesBlock.durationSecondsTruncated, EyesBlock.durationNs, hstart, hstop,
    hcomparable.wrap_sub hmem' hmem, Option.map_some, Option.any_some, htolerance,
    decide_eq_true_eq] at hskip
  have htdiv : (stop - start).tdiv 1000000000 = (stop - start) / 1000000000 :=
    Int.tdiv_eq_ediv_of_nonneg (by omega)
  have hten : Int.tdiv 10000000000 1000000000 = 10 := by decide
  rw [htdiv, hten] at hskip
  omega

theorem GapBlock.relabel {gap : EyesBlock} (h : GapBlock instants gap) {claimType : EyesBlockType}
    (hclaim : claimType ≠ .active) : GapBlock instants { gap with blockType := claimType } :=
  ⟨hclaim, h.bounds⟩

/-- A close that is later than the gap's start takes it as its own. -/
theorem BracketBlock.backfill_start {blockType : EyesBlockType} {bracket : EyesBlock}
    (h : BracketBlock instants blockType bracket) {start stop : Int}
    (hstop : bracket.endNs = some stop) (hstart : start ∈ instants) (hlt : start < stop) :
    BracketBlock instants blockType { bracket with startNs := some start } where
  typed := h.typed
  starts := by simpa using hstart
  stops := h.stops
  bounded := by simp
  forward := by simpa [hstop] using Or.inl hlt

/-- An open that is earlier than the gap's end takes it as its own. -/
theorem BracketBlock.backfill_stop {blockType : EyesBlockType} {bracket : EyesBlock}
    (h : BracketBlock instants blockType bracket) {start stop : Int}
    (hstart : bracket.startNs = some start) (hstop : stop ∈ instants) (hlt : start < stop) :
    BracketBlock instants blockType { bracket with endNs := some stop } where
  typed := h.typed
  starts := h.starts
  stops := by simpa using hstop
  bounded := by simp
  forward := by simpa [hstart] using Or.inl hlt

theorem GapBlock.mem {gap : EyesBlock} (h : GapBlock instants gap) {start stop : Int}
    (hstart : gap.startNs = some start) (hstop : gap.endNs = some stop) :
    start ∈ instants ∧ stop ∈ instants := by
  obtain ⟨start', hmem, stop', hmem', hstart', hstop', -⟩ := h.bounds
  obtain rfl : start = start' := Option.some.inj (hstart.symm.trans hstart')
  obtain rfl : stop = stop' := Option.some.inj (hstop.symm.trans hstop')
  exact ⟨hmem, hmem'⟩

/-- A pass keeps the shape of the brackets and of the gaps. -/
theorem ReconcilePass.shape (hcomparable : Comparable instants) {toleranceNs : Int}
    (htolerance : toleranceNs = 10000000000) {claimType : EyesBlockType}
    (hclaim : claimType ≠ .active) {guardUnclaimed : Bool} {before after : ReconcileCursor}
    (h : ReconcilePass toleranceNs claimType guardUnclaimed before after)
    (hbrackets : ∀ block ∈ before.brackets, BracketBlock instants claimType block)
    (hgaps : ∀ block ∈ before.gaps, GapBlock instants block) :
    (∀ block ∈ after.brackets, BracketBlock instants claimType block) ∧
      ∀ block ∈ after.gaps, GapBlock instants block := by
  cases h with
  | move hsameBrackets hsameGaps =>
      rw [hsameBrackets, hsameGaps]
      exact ⟨hbrackets, hgaps⟩
  | @backfillStart bracket gap gapStart gapEnd bracketEnd h hstart hstop hnear =>
      have hbracket := hbrackets bracket (List.mem_of_getElem? h.bracketAt)
      have hgap := hgaps gap (List.mem_of_getElem? h.gapAt)
      obtain ⟨hmem, hmem'⟩ := hgap.mem h.start h.stop
      have hlong := long_of_not_skippable hcomparable hgap htolerance
        (Bool.eq_false_iff.mp h.gapLong) h.start h.stop
      rw [hcomparable.wrapAbs_sub (hbracket.stops bracketEnd hstop) hmem'] at hnear
      -- the bracket's end is near the gap's, so it is after the gap's start
      exact ⟨forall_mem_set hbrackets (hbracket.backfill_start hstop hmem (by omega)),
        forall_mem_set hgaps (hgap.relabel hclaim)⟩
  | @backfillStop bracket gap gapStart gapEnd bracketStart h hstart hstop hnear =>
      have hbracket := hbrackets bracket (List.mem_of_getElem? h.bracketAt)
      have hgap := hgaps gap (List.mem_of_getElem? h.gapAt)
      obtain ⟨hmem, hmem'⟩ := hgap.mem h.start h.stop
      have hlong := long_of_not_skippable hcomparable hgap htolerance
        (Bool.eq_false_iff.mp h.gapLong) h.start h.stop
      rw [hcomparable.wrapAbs_sub (hbracket.starts bracketStart hstart) hmem] at hnear
      exact ⟨forall_mem_set hbrackets (hbracket.backfill_stop hstart hmem' (by omega)),
        forall_mem_set hgaps (hgap.relabel hclaim)⟩
  | @absorb bracket gap gapStart gapEnd bracketStart bracketEnd h =>
      have hgap := hgaps gap (List.mem_of_getElem? h.gapAt)
      exact ⟨hbrackets, forall_mem_set hgaps (hgap.relabel hclaim)⟩

/-- The reconciliation keeps the shape of the brackets and of the gaps. -/
theorem reconcileWithGaps_shape (hcomparable : Comparable instants) {toleranceNs : Int}
    (htolerance : toleranceNs = 10000000000) {claimType : EyesBlockType}
    (hclaim : claimType ≠ .active) (guardUnclaimed : Bool) {brackets gaps : List EyesBlock}
    (hbrackets : ∀ block ∈ brackets, BracketBlock instants claimType block)
    (hgaps : ∀ block ∈ gaps, GapBlock instants block) :
    (∀ block ∈ (reconcileWithGaps brackets gaps toleranceNs claimType guardUnclaimed).1,
        BracketBlock instants claimType block) ∧
      ∀ block ∈ (reconcileWithGaps brackets gaps toleranceNs claimType guardUnclaimed).2,
        GapBlock instants block := by
  obtain ⟨last, hreaches, -, heq⟩ :=
    reconcileWithGaps_run toleranceNs claimType guardUnclaimed brackets gaps
  rw [heq]
  let Shaped (cursor : ReconcileCursor) : Prop :=
    (∀ block ∈ cursor.brackets, BracketBlock instants claimType block) ∧
      ∀ block ∈ cursor.gaps, GapBlock instants block
  exact hreaches.invariant (I := Shaped)
    (fun _ _ _ hpass hshape => hpass.shape hcomparable htolerance hclaim hshape.1 hshape.2)
    ⟨hbrackets, hgaps⟩

/-! ## Exclusion -/

/-- What is left of an idle block is idle and runs forward. -/
theorem carveLoop_shape {stop : Int} (hstop : stop ∈ instants) {spans : List (Int × Int)}
    (hspans : ∀ span ∈ spans, span.1 ∈ instants ∧ span.2 ∈ instants) {cursor : Int}
    (hcursor : cursor ∈ instants) :
    ∀ block ∈ carveLoop stop spans cursor, ∃ start ∈ instants, ∃ stop ∈ instants,
      block = ⟨.idle, some start, some stop⟩ ∧ start < stop := by
  have hrest : ∀ {cursor}, cursor ∈ instants → ∀ block ∈ carveLoop stop [] cursor,
      ∃ start ∈ instants, ∃ stop ∈ instants, block = ⟨.idle, some start, some stop⟩ ∧ start < stop := by
    intro cursor hcursor block hblock
    unfold carveLoop at hblock
    split at hblock
    · rename_i hlt
      exact ⟨cursor, hcursor, stop, hstop, List.mem_singleton.mp hblock, hlt⟩
    · simp at hblock
  induction spans generalizing cursor with
  | nil => exact hrest hcursor
  | cons span spans ih =>
      obtain ⟨⟨hspanStart, hspanStop⟩, hothers⟩ := List.forall_mem_cons.mp hspans
      obtain ⟨shutdownStart, shutdownEnd⟩ := span
      unfold carveLoop
      split
      · exact ih hothers hcursor
      · split
        · exact hrest hcursor
        · rename_i hbefore
          have hnext : max cursor shutdownEnd ∈ instants := by
            rcases max_choice cursor shutdownEnd with heq | heq <;> rw [heq] <;> assumption
          intro block hblock
          rcases List.mem_append.mp hblock with hblock | hblock
          · split at hblock
            · rename_i hahead
              have hmin : min shutdownStart stop = shutdownStart := by omega
              exact ⟨cursor, hcursor, shutdownStart, hspanStart,
                by rw [List.mem_singleton.mp hblock, hmin], hahead⟩
            · simp at hblock
          · split at hblock
            · exact hrest hnext block hblock
            · exact ih hothers hnext block hblock

theorem setBlock_of_forward {block : EyesBlock} {blockType : EyesBlockType}
    (hactive : blockType ≠ .active) (h : ∃ start ∈ instants, ∃ stop ∈ instants,
      block = ⟨blockType, some start, some stop⟩ ∧ start < stop) : SetBlock instants block := by
  obtain ⟨start, hstart, stop, hstop, rfl, hlt⟩ := h
  exact ⟨hactive, by simpa using hstart, by simpa using hstop, by simp, by simp,
    by simpa using Or.inl hlt⟩

theorem BracketBlock.setBlock {block : EyesBlock} (h : BracketBlock instants .shutdown block) :
    SetBlock instants block where
  inactive := by simp [h.typed]
  starts := h.starts
  stops := h.stops
  bounded := h.bounded
  partials _ := h.typed
  forward := by simpa [h.typed] using h.forward

theorem GapBlock.setBlock {block : EyesBlock} (h : GapBlock instants block)
    (htype : block.blockType = .gap) : SetBlock instants block := by
  obtain ⟨start, hstart, stop, hstop, hstartNs, hstopNs, hlong⟩ := h.bounds
  have hblock : block = ⟨.gap, some start, some stop⟩ := by
    cases block
    simp_all
  exact setBlock_of_forward (by simp) ⟨start, hstart, stop, hstop, hblock, by omega⟩

theorem paired_mem {blocks : List EyesBlock}
    (h : ∀ block ∈ blocks, ∀ start stop, block.paired = some (start, stop) →
      start ∈ instants ∧ stop ∈ instants) :
    ∀ span ∈ blocks.filterMap EyesBlock.paired, span.1 ∈ instants ∧ span.2 ∈ instants := by
  intro span hspan
  obtain ⟨block, hblock, hpaired⟩ := List.mem_filterMap.mp hspan
  exact h block hblock span.1 span.2 hpaired

theorem BracketBlock.paired_mem {block : EyesBlock} {blockType : EyesBlockType}
    (h : BracketBlock instants blockType block) {start stop : Int}
    (hpaired : block.paired = some (start, stop)) : start ∈ instants ∧ stop ∈ instants := by
  obtain ⟨hstart, hstop, -⟩ := EyesBlock.paired_eq_some.mp hpaired
  exact ⟨h.starts start hstart, h.stops stop hstop⟩

/-- Idle blocks minus the shutdown spans are blocks of the set. -/
theorem excludeShutdownFromIdle_shape {idle shutdown : List EyesBlock}
    (hidle : ∀ block ∈ idle, BracketBlock instants .idle block)
    (hshutdown : ∀ block ∈ shutdown, BracketBlock instants .shutdown block) :
    ∀ block ∈ excludeShutdownFromIdle idle shutdown, SetBlock instants block := by
  intro block hblock
  obtain ⟨source, hsource, hblock⟩ := List.mem_flatMap.mp hblock
  split at hblock
  · simp at hblock
  · cases hpaired : source.paired with
    | none => simp [hpaired] at hblock
    | some span =>
        obtain ⟨start, stop⟩ := span
        rw [hpaired] at hblock
        obtain ⟨hstart, hstop⟩ := (hidle source hsource).paired_mem hpaired
        refine setBlock_of_forward (by simp)
          (carveLoop_shape hstop (fun span hspan => ?_) hstart block hblock)
        rw [mem_sortByKey] at hspan
        refine paired_mem (fun block hblock start stop hpaired => ?_) span hspan
        exact (hshutdown block (List.mem_of_mem_filter hblock)).paired_mem hpaired

/-! ## The block set -/

theorem secondsToNs_gapSilenceHours (proximityIntervalNs : Int) :
    secondsToNs ((productionOptions proximityIntervalNs).gapSilenceHours.mulConst 3600) =
      10800000000000 := by
  have hproduct : (Binary64.finite 3).mulConst 3600 = .finite (10800 : ℤ) := by
    have heq : (3 * 3600 : ℚ) = ((10800 : ℤ) : ℚ) := by norm_num
    rw [Binary64.mulConst, heq, Binary64.ofRat_intCast (by decide)]
  exact (congrArg secondsToNs hproduct).trans (secondsToNs_natCast (by decide) (by decide))

theorem secondsToNs_gapRebootNeighborSeconds (proximityIntervalNs : Int) :
    secondsToNs (productionOptions proximityIntervalNs).gapRebootNeighborSeconds = 1000000000 :=
  secondsToNs_natCast (n := 1) (by decide) (by decide)

theorem secondsToNs_gapReconcileSeconds (proximityIntervalNs : Int) :
    secondsToNs (productionOptions proximityIntervalNs).gapReconcileSeconds = 10000000000 :=
  secondsToNs_natCast (n := 10) (by decide) (by decide)

/-- The brackets that are built from the glued stream. -/
theorem bracketBlocks_shape (hevents : ∀ entry ∈ events, entry.1.timestampNs ∈ instants)
    (opens closes : EyesSignal → Bool) (glueNs : Int) (blockType : EyesBlockType) (strictly : Bool)
    (hstrict : strictly = true ∨ blockType = .shutdown) :
    ∀ block ∈ buildBracketBlocks blockType strictly
      (gluePairwise glueNs (bracketStream events opens closes)) none,
      BracketBlock instants blockType block :=
  buildBracketBlocks_shape hstrict (mem_gluePairwise (mem_bracketStream hevents))
    fun _ h => absurd h (Option.not_mem_none _)

/-- Every block of the production set has the shape of one. -/
theorem buildBlockSet_shape (hcomparable : Comparable instants)
    (hevents : ∀ entry ∈ events, entry.1.timestampNs ∈ instants) (proximityIntervalNs : Int) :
    ∀ block ∈ buildBlockSet events (productionOptions proximityIntervalNs),
      SetBlock instants block := by
  have hsegments : ∀ segment ∈ detectGapSegments events (productionOptions proximityIntervalNs),
      GapSegment instants segment :=
    gapLoop_shape hcomparable hevents
      (by rw [secondsToNs_gapSilenceHours]; decide)
      (by rw [secondsToNs_gapRebootNeighborSeconds]) (by simp) (by simp)
  have hgaps : ∀ block ∈ (detectGapSegments events (productionOptions proximityIntervalNs)).map
      fun segment => EyesBlock.mk .gap (some segment.1) (some segment.2), GapBlock instants block := by
    intro block hblock
    obtain ⟨segment, hsegment, rfl⟩ := List.mem_map.mp hblock
    exact (hsegments segment hsegment).gapBlock
  have hshutdown := bracketBlocks_shape hevents EyesSignal.opensShutdown
    EyesSignal.closesShutdown (secondsToNs (productionOptions proximityIntervalNs).blockGlueSeconds)
    .shutdown false (Or.inr rfl)
  have hidle := bracketBlocks_shape hevents EyesSignal.opensIdle EyesSignal.closesIdle
    (secondsToNs (productionOptions proximityIntervalNs).blockGlueSeconds) .idle true (Or.inl rfl)
  obtain ⟨hshutdown, hgaps⟩ := reconcileWithGaps_shape hcomparable
    (secondsToNs_gapReconcileSeconds proximityIntervalNs) (by simp) false hshutdown hgaps
  obtain ⟨hidle, hgaps⟩ := reconcileWithGaps_shape hcomparable
    (secondsToNs_gapReconcileSeconds proximityIntervalNs) (by simp) true hidle hgaps
  intro block hblock
  simp only [buildBlockSet, mem_sortByKey, List.mem_append, or_assoc] at hblock
  rcases hblock with hblock | hblock | hblock | hblock
  · exact (hshutdown block hblock).setBlock
  · exact excludeShutdownFromIdle_shape hidle hshutdown block hblock
  · have hglances := glanceBlocksFrom_shape
      (mem_glanceStream hevents fun segment hsegment => (hsegments segment hsegment).1)
      fun _ h => absurd h (Option.not_mem_none _)
    exact setBlock_of_forward (by simp) (hglances block (List.mem_of_mem_filter hblock))
  · obtain ⟨hblock, htype⟩ := List.mem_filter.mp hblock
    exact (hgaps block hblock).setBlock (by simpa using htype)

end Chronicle.Eyes
