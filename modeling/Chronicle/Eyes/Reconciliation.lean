import Mathlib.Logic.Relation
import Chronicle.Eyes.Blocks

/-!
# The reconciliation of brackets and gaps

A pass of the reconciliation moves its cursors, and it may relabel the gap under them. The bracket
that takes the gap then lies over it up to the tolerance, unless their distance does not fit 64
bits.
-/

namespace Chronicle.Eyes

open Chronicle.Library Chronicle.Library.Machine

/-! ## Covered instants -/

/-- A paired block holds the instant. -/
def Holds (blocks : List EyesBlock) (instant : Int) : Prop :=
  ∃ block ∈ blocks, ∃ start stop,
    block.paired = some (start, stop) ∧ start ≤ instant ∧ instant < stop

/-- Replacing a block that is not paired loses no instant. -/
theorem Holds.set {blocks : List EyesBlock} {index : Nat} {block : EyesBlock} {instant : Int}
    (h : Holds blocks instant) (hblock : blocks[index]? = some block)
    (hunpaired : block.paired = none) (replacement : EyesBlock) :
    Holds (blocks.set index replacement) instant := by
  obtain ⟨other, hother, start, stop, hpaired, hholds⟩ := h
  obtain ⟨i, hi⟩ := List.mem_iff_getElem?.mp hother
  have hne : index ≠ i := by
    rintro rfl
    rw [hblock, Option.some.injEq] at hi
    rw [hi, hpaired] at hunpaired
    exact Option.some_ne_none _ hunpaired
  refine ⟨other, List.mem_iff_getElem?.mpr ⟨i, ?_⟩, start, stop, hpaired, hholds⟩
  rw [List.getElem?_set_ne hne]
  exact hi

theorem forall_mem_set {P : EyesBlock → Prop} {blocks : List EyesBlock} {index : Nat}
    {replacement : EyesBlock} (h : ∀ block ∈ blocks, P block) (hnew : P replacement) :
    ∀ block ∈ blocks.set index replacement, P block := by
  intro block hblock
  rcases List.mem_or_eq_of_mem_set hblock with hold | rfl
  · exact h block hold
  · exact hnew

/-! ## One pass -/

/-- The loop state of `reconcile_with_gaps`. -/
structure ReconcileCursor where
  bracketIndex : Nat
  gapIndex : Nat
  brackets : List EyesBlock
  gaps : List EyesBlock

section Pass

variable (toleranceNs : Int) (claimType : EyesBlockType) (guardUnclaimed : Bool)

/-- The body of the loop, at a bracket and a gap. -/
def reconcileBody (cursor : ReconcileCursor) (bracket gap : EyesBlock) : ReconcileCursor :=
  let nextBracket := { cursor with bracketIndex := cursor.bracketIndex + 1 }
  let nextGap := { cursor with gapIndex := cursor.gapIndex + 1 }
  if skippable toleranceNs bracket then nextBracket
  else if skippable toleranceNs gap then nextGap
  else
    match gap.startNs, gap.endNs with
    | some gapStart, some gapEnd =>
        let claimable := !guardUnclaimed || gap.blockType = .gap
        let claimed :=
          if claimable then cursor.gaps.set cursor.gapIndex { gap with blockType := claimType }
          else cursor.gaps
        match bracket.startNs, bracket.endNs with
        | none, some bracketEnd =>
            if wrapAbs64 (wrap64 (bracketEnd - gapEnd)) ≤ toleranceNs then
              { bracketIndex := cursor.bracketIndex + 1
                gapIndex := cursor.gapIndex + 1
                brackets :=
                  if claimable then
                    cursor.brackets.set cursor.bracketIndex
                      { bracket with startNs := some gapStart }
                  else cursor.brackets
                gaps := claimed }
            else if gapEnd > bracketEnd then nextBracket
            else nextGap
        | some bracketStart, none =>
            if wrapAbs64 (wrap64 (bracketStart - gapStart)) ≤ toleranceNs then
              { bracketIndex := cursor.bracketIndex + 1
                gapIndex := cursor.gapIndex + 1
                brackets :=
                  if claimable then
                    cursor.brackets.set cursor.bracketIndex { bracket with endNs := some gapEnd }
                  else cursor.brackets
                gaps := claimed }
            else if gapStart > bracketStart then nextBracket
            else nextGap
        | some bracketStart, some bracketEnd =>
            if gapStart ≥ wrap64 (bracketStart - toleranceNs) ∧
                gapEnd ≤ wrap64 (bracketEnd + toleranceNs) then
              { nextGap with gaps := claimed }
            else if gapEnd > bracketEnd then nextBracket
            else nextGap
        | none, none => nextBracket
    | _, _ => nextGap

/-- One pass of the loop, if there are a bracket and a gap. -/
def reconcileNext (cursor : ReconcileCursor) : Option ReconcileCursor :=
  match cursor.brackets[cursor.bracketIndex]?, cursor.gaps[cursor.gapIndex]? with
  | some bracket, some gap =>
      some (reconcileBody toleranceNs claimType guardUnclaimed cursor bracket gap)
  | _, _ => none

theorem reconcileLoop_succ (cursor : ReconcileCursor) (fuel : Nat) :
    reconcileLoop toleranceNs claimType guardUnclaimed (fuel + 1) cursor.bracketIndex
        cursor.gapIndex cursor.brackets cursor.gaps =
      match reconcileNext toleranceNs claimType guardUnclaimed cursor with
      | none => (cursor.brackets, cursor.gaps)
      | some next => reconcileLoop toleranceNs claimType guardUnclaimed fuel next.bracketIndex
          next.gapIndex next.brackets next.gaps := by
  rw [reconcileLoop, reconcileNext]
  cases cursor.brackets[cursor.bracketIndex]? with
  | none => rfl
  | some bracket =>
      cases cursor.gaps[cursor.gapIndex]? with
      | none => rfl
      | some gap =>
          -- both sides branch on which ends are present, so each combination is compared on its own
          dsimp only
          unfold reconcileBody
          obtain ⟨gapType, gapStart, gapEnd⟩ := gap
          obtain ⟨bracketType, bracketStart, bracketEnd⟩ := bracket
          cases gapStart with
          | none =>
              dsimp only
              split_ifs <;> rfl
          | some gapStart =>
              cases gapEnd with
              | none =>
                  dsimp only
                  split_ifs <;> rfl
              | some gapEnd =>
                  cases bracketStart with
                  | none =>
                      cases bracketEnd with
                      | none =>
                          dsimp only
                          split_ifs <;> rfl
                      | some bracketEnd =>
                          dsimp only
                          split_ifs <;> rfl
                  | some bracketStart =>
                      cases bracketEnd with
                      | none =>
                          dsimp only
                          split_ifs <;> rfl
                      | some bracketEnd =>
                          dsimp only
                          split_ifs <;> rfl

end Pass

/-- A bracket and a gap under the cursor that a pass compares, where the gap may be claimed. -/
structure Compares (toleranceNs : Int) (guardUnclaimed : Bool) (cursor : ReconcileCursor)
    (bracket gap : EyesBlock) (gapStart gapEnd : Int) : Prop where
  bracketAt : cursor.brackets[cursor.bracketIndex]? = some bracket
  gapAt : cursor.gaps[cursor.gapIndex]? = some gap
  bracketLong : skippable toleranceNs bracket = false
  gapLong : skippable toleranceNs gap = false
  start : gap.startNs = some gapStart
  stop : gap.endNs = some gapEnd
  claimable : guardUnclaimed = true → gap.blockType = .gap

/-- What a pass can do: move its cursors, or relabel the gap for a bracket that takes it. -/
inductive ReconcilePass (toleranceNs : Int) (claimType : EyesBlockType) (guardUnclaimed : Bool) :
    ReconcileCursor → ReconcileCursor → Prop where
  | move {before after : ReconcileCursor} (hbrackets : after.brackets = before.brackets)
      (hgaps : after.gaps = before.gaps)
      (hforward : before.bracketIndex + before.gapIndex < after.bracketIndex + after.gapIndex) :
      ReconcilePass toleranceNs claimType guardUnclaimed before after
  | backfillStart {before : ReconcileCursor} {bracket gap : EyesBlock}
      {gapStart gapEnd bracketEnd : Int}
      (h : Compares toleranceNs guardUnclaimed before bracket gap gapStart gapEnd)
      (hstart : bracket.startNs = none) (hstop : bracket.endNs = some bracketEnd)
      (hnear : wrapAbs64 (wrap64 (bracketEnd - gapEnd)) ≤ toleranceNs) :
      ReconcilePass toleranceNs claimType guardUnclaimed before
        ⟨before.bracketIndex + 1, before.gapIndex + 1,
          before.brackets.set before.bracketIndex { bracket with startNs := some gapStart },
          before.gaps.set before.gapIndex { gap with blockType := claimType }⟩
  | backfillStop {before : ReconcileCursor} {bracket gap : EyesBlock}
      {gapStart gapEnd bracketStart : Int}
      (h : Compares toleranceNs guardUnclaimed before bracket gap gapStart gapEnd)
      (hstart : bracket.startNs = some bracketStart) (hstop : bracket.endNs = none)
      (hnear : wrapAbs64 (wrap64 (bracketStart - gapStart)) ≤ toleranceNs) :
      ReconcilePass toleranceNs claimType guardUnclaimed before
        ⟨before.bracketIndex + 1, before.gapIndex + 1,
          before.brackets.set before.bracketIndex { bracket with endNs := some gapEnd },
          before.gaps.set before.gapIndex { gap with blockType := claimType }⟩
  | absorb {before : ReconcileCursor} {bracket gap : EyesBlock}
      {gapStart gapEnd bracketStart bracketEnd : Int}
      (h : Compares toleranceNs guardUnclaimed before bracket gap gapStart gapEnd)
      (hstart : bracket.startNs = some bracketStart) (hstop : bracket.endNs = some bracketEnd)
      (hfirst : wrap64 (bracketStart - toleranceNs) ≤ gapStart)
      (hlast : gapEnd ≤ wrap64 (bracketEnd + toleranceNs)) :
      ReconcilePass toleranceNs claimType guardUnclaimed before
        ⟨before.bracketIndex, before.gapIndex + 1, before.brackets,
          before.gaps.set before.gapIndex { gap with blockType := claimType }⟩

section Run

variable {instants : Set Int} {toleranceNs : Int} {claimType : EyesBlockType}
  {guardUnclaimed : Bool} {cursor next : ReconcileCursor}

theorem reconcilePass_body {bracket gap : EyesBlock}
    (hbracket : cursor.brackets[cursor.bracketIndex]? = some bracket)
    (hgap : cursor.gaps[cursor.gapIndex]? = some gap) :
    ReconcilePass toleranceNs claimType guardUnclaimed cursor
      (reconcileBody toleranceNs claimType guardUnclaimed cursor bracket gap) := by
  have hnextBracket : ReconcilePass toleranceNs claimType guardUnclaimed cursor
      { cursor with bracketIndex := cursor.bracketIndex + 1 } :=
    .move rfl rfl (by dsimp only; omega)
  have hnextGap : ReconcilePass toleranceNs claimType guardUnclaimed cursor
      { cursor with gapIndex := cursor.gapIndex + 1 } :=
    .move rfl rfl (by dsimp only; omega)
  have hboth : ReconcilePass toleranceNs claimType guardUnclaimed cursor
      { cursor with
        bracketIndex := cursor.bracketIndex + 1
        gapIndex := cursor.gapIndex + 1 } :=
    .move rfl rfl (by dsimp only; omega)
  unfold reconcileBody
  dsimp only
  split
  · exact hnextBracket
  rename_i hbracketLong
  split
  · exact hnextGap
  rename_i hgapLong
  split
  · rename_i gapStart gapEnd hgapStart hgapEnd
    by_cases hclaim : (!guardUnclaimed || gap.blockType = .gap) = true
    · have hcompares : Compares toleranceNs guardUnclaimed cursor bracket gap gapStart gapEnd :=
        ⟨hbracket, hgap, Bool.eq_false_of_not_eq_true hbracketLong,
          Bool.eq_false_of_not_eq_true hgapLong, hgapStart, hgapEnd, fun hguard => by
            simpa [hguard] using hclaim⟩
      simp only [hclaim, if_true]
      split
      · -- a bracket that has only a stop
        rename_i bracketEnd hstart hstop
        split
        · rename_i hnear
          exact .backfillStart hcompares hstart hstop hnear
        · split
          · exact hnextBracket
          · exact hnextGap
      · -- a bracket that has only a start
        rename_i bracketStart hstart hstop
        split
        · rename_i hnear
          exact .backfillStop hcompares hstart hstop hnear
        · split
          · exact hnextBracket
          · exact hnextGap
      · -- a bracket with both ends
        rename_i bracketStart bracketEnd hstart hstop
        split
        · rename_i hwithin
          exact .absorb hcompares hstart hstop hwithin.1 hwithin.2
        · split
          · exact hnextBracket
          · exact hnextGap
      · exact hnextBracket
    · -- a gap that is already claimed only moves the cursors
      simp only [hclaim]
      split
      · split
        · exact hboth
        · split
          · exact hnextBracket
          · exact hnextGap
      · split
        · exact hboth
        · split
          · exact hnextBracket
          · exact hnextGap
      · split
        · exact hnextGap
        · split
          · exact hnextBracket
          · exact hnextGap
      · exact hnextBracket
  · exact hnextGap

/-- A pass is one of the four, and it moves a cursor forward. -/
theorem reconcilePass_of_next
    (h : reconcileNext toleranceNs claimType guardUnclaimed cursor = some next) :
    ReconcilePass toleranceNs claimType guardUnclaimed cursor next := by
  unfold reconcileNext at h
  split at h
  · rename_i bracket gap hbracket hgap
    obtain rfl := Option.some.inj h
    exact reconcilePass_body hbracket hgap
  · cases h

/-- How far the cursors are from the ends of their lists. -/
def ReconcileCursor.left (cursor : ReconcileCursor) : Nat :=
  cursor.brackets.length + cursor.gaps.length - (cursor.bracketIndex + cursor.gapIndex)

theorem ReconcilePass.lengths {before after : ReconcileCursor}
    (h : ReconcilePass toleranceNs claimType guardUnclaimed before after) :
    after.brackets.length = before.brackets.length ∧ after.gaps.length = before.gaps.length ∧
      before.bracketIndex + before.gapIndex < after.bracketIndex + after.gapIndex := by
  cases h with
  | move hbrackets hgaps hforward => exact ⟨by rw [hbrackets], by rw [hgaps], hforward⟩
  | backfillStart | backfillStop =>
      exact ⟨List.length_set, List.length_set, by dsimp only; omega⟩
  | absorb => exact ⟨rfl, List.length_set, by dsimp only; omega⟩

/-- The passes of the loop from a cursor on. -/
def Reaches (toleranceNs : Int) (claimType : EyesBlockType) (guardUnclaimed : Bool) :
    ReconcileCursor → ReconcileCursor → Prop :=
  Relation.ReflTransGen fun before after =>
    reconcileNext toleranceNs claimType guardUnclaimed before = some after

/-- The loop runs until a list is at its end. -/
theorem reconcileLoop_reaches {fuel : Nat} (start : ReconcileCursor) (hfuel : start.left ≤ fuel) :
    ∃ last, Reaches toleranceNs claimType guardUnclaimed start last ∧
      reconcileNext toleranceNs claimType guardUnclaimed last = none ∧
      reconcileLoop toleranceNs claimType guardUnclaimed fuel start.bracketIndex start.gapIndex
        start.brackets start.gaps = (last.brackets, last.gaps) := by
  have hend : ∀ cursor : ReconcileCursor, cursor.left = 0 →
      reconcileNext toleranceNs claimType guardUnclaimed cursor = none := by
    intro cursor hleft
    unfold ReconcileCursor.left at hleft
    unfold reconcileNext
    split
    · rename_i hbracket hgap
      obtain ⟨hbracketIndex, -⟩ := List.getElem?_eq_some_iff.mp hbracket
      obtain ⟨hgapIndex, -⟩ := List.getElem?_eq_some_iff.mp hgap
      omega
    · rfl
  induction fuel generalizing start with
  | zero => exact ⟨start, .refl, hend start (Nat.le_zero.mp hfuel), rfl⟩
  | succ fuel ih =>
      rw [reconcileLoop_succ]
      cases hnext : reconcileNext toleranceNs claimType guardUnclaimed start with
      | none => exact ⟨start, .refl, hnext, rfl⟩
      | some next =>
          obtain ⟨hbrackets, hgaps, hforward⟩ := (reconcilePass_of_next hnext).lengths
          have hleft : next.left ≤ fuel := by
            unfold ReconcileCursor.left at hfuel ⊢
            omega
          obtain ⟨last, hreaches, hlast, heq⟩ := ih next hleft
          exact ⟨last, hreaches.head hnext, hlast, heq⟩

/-- What every pass keeps is kept by the loop. -/
theorem Reaches.invariant {I : ReconcileCursor → Prop} {start last : ReconcileCursor}
    (h : Reaches toleranceNs claimType guardUnclaimed start last)
    (hpass : ∀ before after, Reaches toleranceNs claimType guardUnclaimed start before →
      ReconcilePass toleranceNs claimType guardUnclaimed before after → I before → I after)
    (hstart : I start) : I last := by
  induction h with
  | refl => exact hstart
  | @tail before after hreaches hnext ih =>
      exact hpass before after hreaches (reconcilePass_of_next hnext) ih

/-- Every cursor of the run lies before the last one. -/
theorem Reaches.to_last {start last : ReconcileCursor}
    (hlast : Reaches toleranceNs claimType guardUnclaimed start last)
    (hend : reconcileNext toleranceNs claimType guardUnclaimed last = none)
    (h : Reaches toleranceNs claimType guardUnclaimed start cursor) :
    Reaches toleranceNs claimType guardUnclaimed cursor last := by
  have hunique : Relator.RightUnique fun before after : ReconcileCursor =>
      reconcileNext toleranceNs claimType guardUnclaimed before = some after :=
    fun _ _ _ hfirst hsecond => Option.some.inj (hfirst.symm.trans hsecond)
  rcases Relation.ReflTransGen.total_of_right_unique hunique h hlast with hto | hfrom
  · exact hto
  · rcases hfrom.cases_head with heq | ⟨next, hnext, -⟩
    · exact heq ▸ .refl
    · rw [hend] at hnext
      cases hnext

/-! ## The gaps -/

/-- The wrapped difference says that the bracket's endpoint is near the gap's, and it is not: a
bracket without a start ends too early, or one without an end starts too late. -/
def Overflows (toleranceNs : Int) (bracket : EyesBlock) (gapStart gapEnd : Int) : Prop :=
  (bracket.startNs = none ∧ ∃ bracketEnd, bracket.endNs = some bracketEnd ∧
    wrapAbs64 (wrap64 (bracketEnd - gapEnd)) ≤ toleranceNs ∧ bracketEnd + toleranceNs < gapEnd) ∨
  (bracket.endNs = none ∧ ∃ bracketStart, bracket.startNs = some bracketStart ∧
    wrapAbs64 (wrap64 (bracketStart - gapStart)) ≤ toleranceNs ∧
    gapStart + toleranceNs < bracketStart)

/-- In the loop from the start, the gap at the index is taken through an overflowing difference. -/
def Loses (toleranceNs : Int) (claimType : EyesBlockType) (guardUnclaimed : Bool)
    (start : ReconcileCursor) (index : Nat) : Prop :=
  ∃ cursor bracket gap gapStart gapEnd,
    Reaches toleranceNs claimType guardUnclaimed start cursor ∧ cursor.gapIndex = index ∧
    Compares toleranceNs guardUnclaimed cursor bracket gap gapStart gapEnd ∧
    Overflows toleranceNs bracket gapStart gapEnd

/-- The blocks hold every instant of the gap further than the tolerance from both its ends. -/
def HoldsInside (toleranceNs : Int) (blocks : List EyesBlock) (gap : EyesBlock) : Prop :=
  ∀ gapStart gapEnd, gap.startNs = some gapStart → gap.endNs = some gapEnd →
    ∀ instant, gapStart + toleranceNs < instant → instant < gapEnd - toleranceNs →
      Holds blocks instant

/-- What has become of a gap: it is as it was, or a bracket has taken it. -/
structure Accounted (toleranceNs : Int) (claimType : EyesBlockType) (lost : Prop)
    (brackets : List EyesBlock) (old gap : EyesBlock) : Prop where
  start : gap.startNs = old.startNs
  stop : gap.endNs = old.endNs
  account : gap.blockType = old.blockType ∨
    gap.blockType = claimType ∧ (lost ∨ HoldsInside toleranceNs brackets gap)

/-- A bracket of the given type with endpoints among the instants. -/
structure BracketOn (instants : Set Int) (claimType : EyesBlockType) (bracket : EyesBlock) :
    Prop where
  typed : bracket.blockType = claimType
  starts : ∀ start ∈ bracket.startNs, start ∈ instants
  stops : ∀ stop ∈ bracket.endNs, stop ∈ instants

/-- A gap with endpoints among the instants. -/
structure GapOn (instants : Set Int) (gap : EyesBlock) : Prop where
  starts : ∀ start ∈ gap.startNs, start ∈ instants
  stops : ∀ stop ∈ gap.endNs, stop ∈ instants

/-- A wrapped bound is not too small, nor too large. -/
theorem le_of_wrap64_sub {a b tolerance : Int} (ha : Fits64 a)
    (htolerance : 0 ≤ tolerance) (hsmall : tolerance ≤ i64Max) (h : wrap64 (a - tolerance) ≤ b) :
    a ≤ b + tolerance := by
  rw [fits64_iff] at ha
  unfold i64Max at hsmall
  unfold wrap64 at h
  omega

theorem le_of_wrap64_add {a b tolerance : Int} (ha : Fits64 a)
    (htolerance : 0 ≤ tolerance) (hsmall : tolerance ≤ i64Max) (h : b ≤ wrap64 (a + tolerance)) :
    b - tolerance ≤ a := by
  rw [fits64_iff] at ha
  unfold i64Max at hsmall
  unfold wrap64 at h
  omega

theorem holds_of_mem {blocks : List EyesBlock} {block : EyesBlock} (hblock : block ∈ blocks)
    {start stop instant : Int} (hstart : block.startNs = some start)
    (hstop : block.endNs = some stop) (hbegin : start ≤ instant) (hend : instant < stop) :
    Holds blocks instant :=
  ⟨block, hblock, start, stop,
    EyesBlock.paired_eq_some.mpr ⟨hstart, hstop, hbegin.trans_lt hend⟩, hbegin, hend⟩

/-- What a pass does to the gap under its cursor, and what stays as it was. -/
theorem ReconcilePass.gaps {before after : ReconcileCursor}
    (h : ReconcilePass toleranceNs claimType guardUnclaimed before after)
    (hbrackets : ∀ bracket ∈ before.brackets, BracketOn instants claimType bracket)
    (hgaps : ∀ gap ∈ before.gaps, GapOn instants gap) (hfits : ∀ instant ∈ instants, Fits64 instant)
    (htolerance : 0 ≤ toleranceNs) (hsmall : toleranceNs ≤ i64Max) :
    (∀ instant, Holds before.brackets instant → Holds after.brackets instant) ∧
      (∀ bracket ∈ after.brackets, BracketOn instants claimType bracket) ∧
      (after.gaps = before.gaps ∨
        ∃ bracket gap gapStart gapEnd,
          Compares toleranceNs guardUnclaimed before bracket gap gapStart gapEnd ∧
          after.gaps = before.gaps.set before.gapIndex { gap with blockType := claimType } ∧
          (Overflows toleranceNs bracket gapStart gapEnd ∨
            HoldsInside toleranceNs after.brackets gap)) := by
  cases h with
  | move hsameBrackets hsameGaps =>
      rw [hsameBrackets]
      exact ⟨fun _ => id, hbrackets, Or.inl hsameGaps⟩
  | @backfillStart bracket gap gapStart gapEnd bracketEnd h hstart hstop hnear =>
      have hbracket := hbrackets bracket (List.mem_of_getElem? h.bracketAt)
      have hgap := hgaps gap (List.mem_of_getElem? h.gapAt)
      have hunpaired : bracket.paired = none := by
        unfold EyesBlock.paired
        rw [hstart]
      refine ⟨fun instant hholds => hholds.set h.bracketAt hunpaired _,
        forall_mem_set hbrackets ⟨hbracket.typed, ?_, hbracket.stops⟩,
        Or.inr ⟨bracket, gap, gapStart, gapEnd, h, rfl, ?_⟩⟩
      · intro start hin
        obtain rfl : gapStart = start := Option.some.inj hin
        exact hgap.starts gapStart h.start
      · -- the start is pulled back to the gap, which covers it when its stop reaches far enough
        by_cases hshort : bracketEnd + toleranceNs < gapEnd
        · exact Or.inl (Or.inl ⟨hstart, bracketEnd, hstop, hnear, hshort⟩)
        · refine Or.inr fun start stop hstartEq hstopEq instant hbegin hend => ?_
          obtain rfl : gapStart = start := Option.some.inj (h.start.symm.trans hstartEq)
          obtain rfl : gapEnd = stop := Option.some.inj (h.stop.symm.trans hstopEq)
          exact holds_of_mem (List.mem_set (List.getElem?_eq_some_iff.mp h.bracketAt).1 _) rfl hstop
            (by omega) (by omega)
  | @backfillStop bracket gap gapStart gapEnd bracketStart h hstart hstop hnear =>
      have hbracket := hbrackets bracket (List.mem_of_getElem? h.bracketAt)
      have hgap := hgaps gap (List.mem_of_getElem? h.gapAt)
      have hunpaired : bracket.paired = none := by
        unfold EyesBlock.paired
        rw [hstart, hstop]
      refine ⟨fun instant hholds => hholds.set h.bracketAt hunpaired _,
        forall_mem_set hbrackets ⟨hbracket.typed, hbracket.starts, ?_⟩,
        Or.inr ⟨bracket, gap, gapStart, gapEnd, h, rfl, ?_⟩⟩
      · intro stop hin
        obtain rfl : gapEnd = stop := Option.some.inj hin
        exact hgap.stops gapEnd h.stop
      · by_cases hlate : gapStart + toleranceNs < bracketStart
        · exact Or.inl (Or.inr ⟨hstop, bracketStart, hstart, hnear, hlate⟩)
        · refine Or.inr fun start stop hstartEq hstopEq instant hbegin hend => ?_
          obtain rfl : gapStart = start := Option.some.inj (h.start.symm.trans hstartEq)
          obtain rfl : gapEnd = stop := Option.some.inj (h.stop.symm.trans hstopEq)
          exact holds_of_mem (List.mem_set (List.getElem?_eq_some_iff.mp h.bracketAt).1 _) hstart
            rfl (by omega) (by omega)
  | @absorb bracket gap gapStart gapEnd bracketStart bracketEnd h hstart hstop hfirst hlast =>
      have hmem := List.mem_of_getElem? h.bracketAt
      have hbracket := hbrackets bracket hmem
      refine ⟨fun _ => id, hbrackets, Or.inr ⟨bracket, gap, gapStart, gapEnd, h, rfl, Or.inr ?_⟩⟩
      intro start stop hstartEq hstopEq instant hbegin hend
      obtain rfl : gapStart = start := Option.some.inj (h.start.symm.trans hstartEq)
      obtain rfl : gapEnd = stop := Option.some.inj (h.stop.symm.trans hstopEq)
      have hbefore := le_of_wrap64_sub (hfits _ (hbracket.starts _ hstart)) htolerance hsmall hfirst
      have hafter := le_of_wrap64_add (hfits _ (hbracket.stops _ hstop)) htolerance hsmall hlast
      exact holds_of_mem hmem hstart hstop (by omega) (by omega)

/-! ## A whole run -/

theorem Accounted.mono {lost lost' : Prop} {brackets brackets' : List EyesBlock}
    {old gap : EyesBlock} (h : Accounted toleranceNs claimType lost brackets old gap)
    (hlost : lost → lost') (hholds : ∀ instant, Holds brackets instant → Holds brackets' instant) :
    Accounted toleranceNs claimType lost' brackets' old gap where
  start := h.start
  stop := h.stop
  account := h.account.imp_right fun ⟨htype, haccount⟩ =>
    ⟨htype, haccount.imp hlost fun hinside start stop hstart hstop instant hbegin hend =>
      hholds instant (hinside start stop hstart hstop instant hbegin hend)⟩

/-- How far the loop has come from its start. -/
structure Reconciled (instants : Set Int) (toleranceNs : Int) (claimType : EyesBlockType)
    (guardUnclaimed : Bool) (start cursor : ReconcileCursor) : Prop where
  brackets : ∀ bracket ∈ cursor.brackets, BracketOn instants claimType bracket
  onInstants : ∀ gap ∈ cursor.gaps, GapOn instants gap
  length : cursor.gaps.length = start.gaps.length
  gaps : ∀ index old, start.gaps[index]? = some old → ∃ gap, cursor.gaps[index]? = some gap ∧
    Accounted toleranceNs claimType (Loses toleranceNs claimType guardUnclaimed start index)
      cursor.brackets old gap

theorem Reconciled.pass {start before after : ReconcileCursor}
    (h : Reconciled instants toleranceNs claimType guardUnclaimed start before)
    (hreaches : Reaches toleranceNs claimType guardUnclaimed start before)
    (hpass : ReconcilePass toleranceNs claimType guardUnclaimed before after)
    (hfits : ∀ instant ∈ instants, Fits64 instant) (htolerance : 0 ≤ toleranceNs)
    (hsmall : toleranceNs ≤ i64Max) :
    Reconciled instants toleranceNs claimType guardUnclaimed start after := by
  obtain ⟨hholds, hbrackets, hgaps⟩ := hpass.gaps h.brackets h.onInstants hfits htolerance hsmall
  refine ⟨hbrackets, ?_, hpass.lengths.2.1.trans h.length, fun index old hold => ?_⟩
  · rcases hgaps with hsame | ⟨bracket, gap, gapStart, gapEnd, hcompares, hset, -⟩
    · rw [hsame]
      exact h.onInstants
    · rw [hset]
      have hgap := h.onInstants gap (List.mem_of_getElem? hcompares.gapAt)
      exact forall_mem_set h.onInstants ⟨hgap.starts, hgap.stops⟩
  · obtain ⟨current, hcurrent, haccounted⟩ := h.gaps index old hold
    have hkept := haccounted.mono id hholds
    rcases hgaps with hsame | ⟨bracket, gap, gapStart, gapEnd, hcompares, hset, haccount⟩
    · rw [hsame]
      exact ⟨current, hcurrent, hkept⟩
    · rw [hset]
      by_cases hindex : before.gapIndex = index
      · -- the gap that the pass relabels
        subst hindex
        obtain rfl : gap = current := Option.some.inj (hcompares.gapAt.symm.trans hcurrent)
        refine ⟨_, List.getElem?_set_self (List.getElem?_eq_some_iff.mp hcurrent).1,
          haccounted.start, haccounted.stop, Or.inr ⟨rfl, ?_⟩⟩
        exact haccount.imp_left fun hoverflows =>
          ⟨before, bracket, gap, gapStart, gapEnd, hreaches, rfl, hcompares, hoverflows⟩
      · exact ⟨current, (List.getElem?_set_ne hindex).trans hcurrent, hkept⟩

/-- The reconciliation as a run of passes. -/
theorem reconcileWithGaps_run (toleranceNs : Int) (claimType : EyesBlockType)
    (guardUnclaimed : Bool) (brackets gaps : List EyesBlock) :
    ∃ last, Reaches toleranceNs claimType guardUnclaimed ⟨0, 0, brackets, gaps⟩ last ∧
      reconcileNext toleranceNs claimType guardUnclaimed last = none ∧
      reconcileWithGaps brackets gaps toleranceNs claimType guardUnclaimed =
        (last.brackets, last.gaps) :=
  reconcileLoop_reaches ⟨0, 0, brackets, gaps⟩ (Nat.sub_le _ _)

/-- A gap that has lost its label does not get it back. -/
theorem ReconcilePass.relabelled {before after : ReconcileCursor}
    (h : ReconcilePass toleranceNs claimType guardUnclaimed before after)
    (hclaim : claimType ≠ .gap) {index : Nat}
    (hbefore : ∀ gap, before.gaps[index]? = some gap → gap.blockType ≠ .gap) :
    ∀ gap, after.gaps[index]? = some gap → gap.blockType ≠ .gap := by
  have hset : ∀ {place : Nat} {old : EyesBlock} gap,
      (before.gaps.set place { old with blockType := claimType })[index]? = some gap →
      gap.blockType ≠ .gap := by
    intro place old gap hgap
    rw [List.getElem?_set] at hgap
    split_ifs at hgap
    · obtain rfl := Option.some.inj hgap
      exact hclaim
    · exact hbefore gap hgap
  cases h with
  | move hbrackets hgaps =>
      rw [hgaps]
      exact hbefore
  | backfillStart | backfillStop | absorb => exact hset

/-- An overflowing difference lets the bracket take the gap. -/
theorem reconcileNext_of_overflows (claimType : EyesBlockType) {bracket gap : EyesBlock}
    {gapStart gapEnd : Int}
    (h : Compares toleranceNs guardUnclaimed cursor bracket gap gapStart gapEnd)
    (hoverflows : Overflows toleranceNs bracket gapStart gapEnd) :
    ∃ next, reconcileNext toleranceNs claimType guardUnclaimed cursor = some next ∧
      next.gaps = cursor.gaps.set cursor.gapIndex { gap with blockType := claimType } := by
  refine ⟨_, by rw [reconcileNext, h.bracketAt, h.gapAt], ?_⟩
  have hclaim : (!guardUnclaimed || gap.blockType = .gap) = true := by
    cases hguard : guardUnclaimed with
    | false => rfl
    | true => simpa using h.claimable hguard
  have hlong : ¬ skippable toleranceNs bracket = true := Bool.not_eq_true _ ▸ h.bracketLong
  have hgapLong : ¬ skippable toleranceNs gap = true := Bool.not_eq_true _ ▸ h.gapLong
  unfold reconcileBody
  simp only [if_neg hlong, if_neg hgapLong, h.start, h.stop, hclaim, if_true]
  rcases hoverflows with ⟨hstart, bracketEnd, hstop, hnear, -⟩ |
    ⟨hstop, bracketStart, hstart, hnear, -⟩
  · simp only [hstart, hstop, if_pos hnear]
  · simp only [hstart, hstop, if_pos hnear]

/-- A lost gap is no gap any more. -/
theorem Loses.relabelled {start last : ReconcileCursor} {index : Nat}
    (h : Loses toleranceNs claimType guardUnclaimed start index) (hclaim : claimType ≠ .gap)
    (hlast : Reaches toleranceNs claimType guardUnclaimed start last)
    (hend : reconcileNext toleranceNs claimType guardUnclaimed last = none) :
    ∀ gap, last.gaps[index]? = some gap → gap.blockType ≠ .gap := by
  obtain ⟨cursor, bracket, gap, gapStart, gapEnd, hreaches, rfl, hcompares, hoverflows⟩ := h
  obtain ⟨next, hnext, hgaps⟩ :=
    reconcileNext_of_overflows claimType hcompares hoverflows
  have hto := hlast.to_last hend (hreaches.tail hnext)
  refine hto.invariant (I := fun cursor' => ∀ gap, cursor'.gaps[cursor.gapIndex]? = some gap →
    gap.blockType ≠ .gap) (fun _ _ _ hpass hbefore => hpass.relabelled hclaim hbefore) ?_
  intro gap' hgap'
  rw [hgaps, List.getElem?_set_self (List.getElem?_eq_some_iff.mp hcompares.gapAt).1] at hgap'
  obtain rfl := Option.some.inj hgap'
  exact hclaim

end Run

end Chronicle.Eyes
