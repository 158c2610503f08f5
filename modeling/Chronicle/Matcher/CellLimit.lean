import Chronicle.Matcher.FusedRule

/-!
# The reach of a list cell

A list cell is an `i32`, so whatever the input is, no walk of the lists returns an index from
`2 ^ 31` on. An opener there is never closed and never reported missing by a list-based matcher.
-/

namespace Chronicle.Matcher

open Chronicle.Library.LazyChain

namespace SparseOpenStarts

/-- Every cell of the lists is below `2 ^ 31`. -/
structure CellsBelow (s : SparseOpenStarts) : Prop where
  globalBefore : ∀ i, s.globalBefore i < 2 ^ 31
  appBefore : ∀ i, s.appBefore i < 2 ^ 31
  appHead : ∀ slot, s.appHead slot < 2 ^ 31
  globalHead : s.globalHead < 2 ^ 31

variable {a : EventArrays} {s : SparseOpenStarts}

theorem new_cellsBelow (h : new a = .ok s) : s.CellsBelow := by
  have hempty : ∀ n j, (Array.replicate n (-1 : Int)).getD j (-1) < 2 ^ 31 := by
    intro n j
    rw [Array.getD_eq_getD_getElem?, Array.getElem?_replicate]
    split <;> decide
  unfold new at h
  split at h
  · cases h
  · cases h
    exact ⟨hempty _, hempty _, hempty _, show (-1 : Int) < 2 ^ 31 by decide⟩

namespace CellsBelow

theorem openStart (h : s.CellsBelow) (index : Nat) (appCode : Int) :
    (s.openStart index appCode).CellsBelow where
  globalBefore := getD_set_lt h.globalBefore h.globalHead
  appBefore := getD_set_lt h.appBefore (h.appHead _)
  appHead := getD_set_lt h.appHead (as_i32_lt index)
  globalHead := as_i32_lt index

/-- Marking touches no cell. -/
theorem mark (h : s.CellsBelow) (closed : Array Bool) :
    ({ s with closed := closed } : SparseOpenStarts).CellsBelow :=
  ⟨h.globalBefore, h.appBefore, h.appHead, h.globalHead⟩

theorem pruneGlobal (h : s.CellsBelow) : s.pruneGlobalHead.CellsBelow :=
  ⟨h.globalBefore, h.appBefore, h.appHead, pruneHead_lt (fun i _ => h.globalBefore i) h.globalHead⟩

theorem pruneApp (h : s.CellsBelow) (appCode : Int) : (s.pruneAppHead appCode).CellsBelow where
  globalBefore := h.globalBefore
  appBefore := h.appBefore
  appHead := getD_set_lt h.appHead (pruneHead_lt (fun i _ => h.appBefore i) (h.appHead _))
  globalHead := h.globalHead

theorem latestSameApp (h : s.CellsBelow) (appCode : Int) (valid : Nat → Bool) :
    (s.latestSameApp appCode valid).1.CellsBelow ∧
      ∀ start, (s.latestSameApp appCode valid).2 = some start → start < 2 ^ 31 := by
  have hpruned := h.pruneApp appCode
  have hhead := hpruned.appHead appCode.toNat
  unfold SparseOpenStarts.latestSameApp
  dsimp only
  split_ifs
  · exact ⟨hpruned, by simp⟩
  · exact ⟨hpruned, by simp⟩
  · refine ⟨hpruned, fun start hstart => ?_⟩
    rw [← Option.some.inj hstart]
    omega

theorem latestMatchingGlobal (h : s.CellsBelow) (valid predicate : Nat → Bool) :
    (s.latestMatchingGlobal valid predicate).1.CellsBelow ∧
      ∀ start, (s.latestMatchingGlobal valid predicate).2 = some start → start < 2 ^ 31 := by
  have hpruned := h.pruneGlobal
  refine ⟨hpruned, fun start hstart => ?_⟩
  have hlt := findFrom_lt (fun i _ => hpruned.globalBefore i) hpruned.globalHead hstart
  omega

theorem closeSameAppMatches (h : s.CellsBelow) (appCode : Int) (valid : Nat → Bool) :
    (s.closeSameAppMatches appCode valid).1.CellsBelow ∧
      ∀ start ∈ (s.closeSameAppMatches appCode valid).2, start < 2 ^ 31 := by
  have hpruned := h.pruneApp appCode
  refine ⟨((hpruned.mark _).pruneApp appCode).pruneGlobal, fun start hstart => ?_⟩
  have hlt := collectFrom_lt (fun i _ => hpruned.appBefore i) (hpruned.appHead _) start hstart
  omega

theorem closeMatchingGlobal (h : s.CellsBelow) (valid predicate : Nat → Bool) :
    (s.closeMatchingGlobal valid predicate).1.CellsBelow ∧
      ∀ start ∈ (s.closeMatchingGlobal valid predicate).2, start < 2 ^ 31 := by
  have hpruned := h.pruneGlobal
  refine ⟨(hpruned.mark _).pruneGlobal, fun start hstart => ?_⟩
  have hlt := collectFrom_lt (fun i _ => hpruned.globalBefore i) hpruned.globalHead start hstart
  omega

theorem finishOpenStarts (h : s.CellsBelow) (accepted : Nat → Bool) :
    ∀ start ∈ (s.finishOpenStarts accepted).2.1 ++ (s.finishOpenStarts accepted).2.2,
      start < 2 ^ 31 := by
  have hpruned := h.pruneGlobal
  intro start hstart
  have hlt := sweepFrom_lt (fun i _ => hpruned.globalBefore i) hpruned.globalHead start hstart
  omega

end CellsBelow

end SparseOpenStarts

/-! ## Rows whose only opener is out of reach -/

/-- `n` plain rows and a last row that is an opener. -/
def openerAfter (n : Nat) : OpenerArrays where
  appCodes := Array.replicate (n + 1) 0
  timestampNs := Array.replicate (n + 1) 0
  sameStop := Array.replicate (n + 1) false
  otherStop := Array.replicate (n + 1) false
  stopped := Array.replicate (n + 1) false
  background := Array.replicate (n + 1) false
  eligibleOpener := (Array.replicate n false).push true
  nativeResumed := Array.replicate (n + 1) false

section OpenerAfter

variable (n : Nat)

theorem openerAfter_len : (openerAfter n).len = n + 1 := by
  simp [EventArrays.len, openerAfter]

theorem openerAfter_sameLengths : (openerAfter n).SameLengths (openerAfter n).nativeResumed ∧
    (openerAfter n).eligibleOpener.size = (openerAfter n).len := by
  rw [EventArrays.SameLengths, openerAfter_len]
  simp [openerAfter]

theorem openerAfter_codes : (openerAfter n).NonnegativeCodes := by
  intro i _
  rw [EventArrays.appCode, Array.getD_eq_getD_getElem?, openerAfter, Array.getElem?_replicate]
  split <;> simp

theorem openerAfter_timestamp (i : Nat) : (openerAfter n).timestamp i = 0 := by
  rw [EventArrays.timestamp, Array.getD_eq_getD_getElem?, openerAfter, Array.getElem?_replicate]
  split <;> rfl

theorem openerAfter_sorted : (openerAfter n).SortedTimestamps := fun i j _ _ =>
  Int.le_of_eq ((openerAfter_timestamp n i).trans (openerAfter_timestamp n j).symm)

theorem openerAfter_isEligible : (openerAfter n).isEligible n = true := by
  rw [OpenerArrays.isEligible, Array.getD_eq_getD_getElem?, openerAfter, Array.getElem?_push]
  simp

end OpenerAfter

section Runs

variable {a : EventArrays} {options : MatchOptions} {st : SparseState}

/-- The cells and the closed starts of a sparse state are below `2 ^ 31`. -/
structure SparseState.Below (st : SparseState) : Prop where
  cells : st.openStarts.CellsBelow
  closed : ∀ start ∈ st.stopStartIndices, start < 2 ^ 31

namespace SparseState.Below

theorem init {s : SparseOpenStarts} (h : SparseOpenStarts.new a = .ok s) : (sparseInit s).Below :=
  ⟨SparseOpenStarts.new_cellsBelow h, by simp [sparseInit]⟩

theorem record (h : st.Below) {s : SparseOpenStarts} {closed : List Nat} (hcells : s.CellsBelow)
    (hclosed : ∀ start ∈ closed, start < 2 ^ 31) (index : Nat) :
    (recordCloses a st s closed index).Below where
  cells := hcells
  closed := by
    intro start hstart
    rcases List.mem_append.mp hstart with hstart | hstart
    · exact h.closed start hstart
    · exact hclosed start hstart

theorem recordMatch (h : st.Below) {s : SparseOpenStarts} {matched : Option Nat}
    (hcells : s.CellsBelow) (hmatched : ∀ start, matched = some start → start < 2 ^ 31)
    (index : Nat) : (recordMatch a st s matched index).Below := by
  cases matched with
  | none => exact h.record hcells (by simp) index
  | some start => exact h.record (hcells.mark _) (by simpa using hmatched start rfl) index

theorem opened (h : st.Below) (opener : Nat → Bool) (index : Nat) :
    (sparseOpen a opener st index).Below := by
  unfold sparseOpen
  split
  · exact ⟨h.cells.openStart _ _, h.closed⟩
  · exact h

/-- The starts that reuse closes. -/
theorem closeMatches (h : st.Below) (a : EventArrays) (options : MatchOptions)
    (mode : SparseStopMode) (index : Nat) :
    (sparseCloseMatches a options mode index st.openStarts).1.CellsBelow ∧
      ∀ start ∈ (sparseCloseMatches a options mode index st.openStarts).2, start < 2 ^ 31 := by
  cases mode with
  | sameApp => exact h.cells.closeSameAppMatches _ _
  | fallbackSameApp => exact h.cells.closeSameAppMatches _ _
  | otherApp => exact h.cells.closeMatchingGlobal _ _
  | anyApp => exact h.cells.closeMatchingGlobal _ _

/-- The start that a single match finds. -/
theorem latestMatch (h : st.Below) (a : EventArrays) (options : MatchOptions)
    (mode : SparseStopMode) (index : Nat) :
    (sparseLatestMatch a options mode index st.openStarts).1.CellsBelow ∧
      ∀ start, (sparseLatestMatch a options mode index st.openStarts).2 = some start →
        start < 2 ^ 31 := by
  cases mode with
  | sameApp => exact h.cells.latestSameApp _ _
  | fallbackSameApp => exact h.cells.latestSameApp _ _
  | otherApp => exact h.cells.latestMatchingGlobal _ _
  | anyApp => exact h.cells.latestMatchingGlobal _ _

theorem sparseStop (h : st.Below) (index : Nat) : (sparseStop a options st index).Below := by
  unfold Matcher.sparseStop
  split
  · exact h
  · next mode _ =>
      split
      · have hclose := h.closeMatches a options mode index
        exact h.record hclose.1 hclose.2 index
      · have hlatest := h.latestMatch a options mode index
        exact h.recordMatch hlatest.1 hlatest.2 index

theorem sortedStop {a : OpenerArrays} {proximityNs : Int} {re : ReresumeState} (h : st.Below)
    (index : Nat) : (sortedStop a options proximityNs re st index).Below := by
  unfold Matcher.sortedStop
  split
  · exact h
  · next mode _ =>
      split
      · have hclose := h.closeMatches a.toEventArrays options mode index
        exact h.record hclose.1 (fun start hstart => hclose.2 start (List.mem_reverse.mp hstart))
          index
      · have hlatest := h.latestMatch a.toEventArrays options mode index
        refine h.recordMatch hlatest.1 (fun start hstart => hlatest.2 start ?_) index
        split at hstart
        · exact (Option.filter_eq_some_iff.mp hstart).1
        · exact hstart

/-- What the final sweep reports. -/
theorem finish (h : st.Below) {order : List Nat → List Nat} (horder : ∀ l, (order l).Perm l) :
    ∀ start ∈ (sparseFinish a options order st).stopStartIndices ++
      (sparseFinish a options order st).missingIndices, start < 2 ^ 31 := by
  unfold sparseFinish
  split
  · intro start hstart
    have hsweep := h.cells.finishOpenStarts (acceptsEndOfStream options a (a.len - 1))
    simp only [List.append_assoc, List.mem_append, (horder _).mem_iff] at hstart hsweep
    rcases hstart with hstart | hstart
    · exact h.closed start hstart
    · exact hsweep start hstart
  · simpa using h.closed

end SparseState.Below

end Runs

end Chronicle.Matcher
