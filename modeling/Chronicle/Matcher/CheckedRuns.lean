import Chronicle.Library.Stages
import Chronicle.Matcher.CheckedLists
import Chronicle.Matcher.ProximityEquivalence

/-!
# No access of the fused rule is out of bounds

With the lengths equal and no code negative, every event finds the lists inside the arrays, and the
checked matchers return what the unchecked ones do.
-/

namespace Chronicle.Matcher

open Chronicle.Library

/-! ## One stop event -/

section Stops

variable {a : EventArrays} {options : MatchOptions} {resumed : Array Bool} {bound index : Nat}

/-- Every array can be read at the place of an event. -/
theorem EventArrays.SameLengths.reads (hlen : a.SameLengths resumed) {i : Nat} (hi : i < a.len) :
    readAt a.appCodes i = .ok (a.appCode i) ∧ readAt a.timestampNs i = .ok (a.timestamp i) ∧
      readAt a.sameStop i = .ok (a.isSameStop i) ∧ readAt a.otherStop i = .ok (a.isOtherStop i) ∧
      readAt a.stopped i = .ok (a.isStopped i) ∧ readAt a.background i = .ok (a.isBackground i) := by
  obtain ⟨htimestamp, -, hsame, hother, hstopped, hbackground⟩ := hlen
  exact ⟨readAt_eq hi 0, readAt_eq (htimestamp ▸ hi) 0, readAt_eq (hsame ▸ hi) false,
    readAt_eq (hother ▸ hi) false, readAt_eq (hstopped ▸ hi) false,
    readAt_eq (hbackground ▸ hi) false⟩

theorem ChecksBelow.mono {checkM : Nat → MatcherResult Bool} {check : Nat → Bool}
    (h : ChecksBelow a.len checkM check) (hbound : bound ≤ a.len) :
    ChecksBelow bound checkM check :=
  fun i hi => h i (hi.trans_le hbound)

section Reads

variable (hlen : a.SameLengths resumed) (options)
include hlen

theorem checkedStopMode_eq (hindex : index < a.len) :
    checkedStopMode a options index = .ok (sparseStopMode a options index) := by
  obtain ⟨-, -, hsame, hother, hstopped, -⟩ := hlen.reads hindex
  rw [checkedStopMode, hsame, hother, hstopped]
  rfl

theorem checkedValid_below (mode : SparseStopMode) (index : Nat) :
    ChecksBelow a.len (checkedValid a options mode (a.timestamp index))
      (sparseValid a options mode index) := by
  intro i hi
  obtain ⟨-, htimestamp, -⟩ := hlen.reads hi
  rw [checkedValid, htimestamp]
  rfl

theorem checkedOtherApp_below (index : Nat) :
    ChecksBelow a.len (checkedOtherApp a (a.appCode index)) (otherAppPredicate a index) := by
  intro i hi
  obtain ⟨hcode, -, -, -, -, hbackground⟩ := hlen.reads hi
  rw [checkedOtherApp, hcode, hbackground, otherAppPredicate]
  simp only [ok_bind]
  cases a.appCode i != a.appCode index <;> rfl

theorem checkedAnyApp_below (index : Nat) :
    ChecksBelow a.len (checkedAnyApp a (a.appCode index)) (anyAppPredicate a index) := by
  intro i hi
  obtain ⟨hcode, -, -, -, -, hbackground⟩ := hlen.reads hi
  rw [checkedAnyApp, hcode, hbackground, anyAppPredicate]
  simp only [ok_bind]
  cases a.appCode i == a.appCode index <;> rfl

theorem checkedCloseReason_eq {stopIndex startIndex : Nat} (hstop : stopIndex < a.len)
    (hstart : startIndex < a.len) :
    checkedCloseReason a stopIndex startIndex = .ok (legacyCloseReason a stopIndex startIndex) := by
  obtain ⟨hstartCode, -, -, -, -, hbackground⟩ := hlen.reads hstart
  obtain ⟨hstopCode, -, hsame, hother, -, -⟩ := hlen.reads hstop
  rw [checkedCloseReason, hstartCode, hstopCode, hsame, hother, hbackground, legacyCloseReason]
  simp only [ok_bind]
  generalize (a.appCode startIndex == a.appCode stopIndex) = sameApp
  cases sameApp <;> cases a.isSameStop stopIndex <;> cases a.isOtherStop stopIndex <;>
    cases a.isBackground startIndex <;> rfl

/-- The codes of the events are slots of the list heads. -/
theorem checkedCloseMatches_eq {openStarts : SparseOpenStarts} (h : openStarts.Inside a bound)
    (hcodes : a.NonnegativeCodes) (hindex : index < a.len) (mode : SparseStopMode) :
    checkedCloseMatches a options mode index openStarts =
      .ok (sparseCloseMatches a options mode index openStarts) := by
  obtain ⟨hcode, htimestamp, -⟩ := hlen.reads hindex
  have hvalid := (checkedValid_below options hlen mode index).mono h.bound_le
  have hsameApp := h.checkedCloseSameAppMatches_eq (hcodes index hindex)
    (EventArrays.appCode_le_max hindex) hvalid
  have hotherApp := h.checkedCloseMatchingGlobal_eq hvalid
    ((checkedOtherApp_below hlen index).mono h.bound_le)
  have hanyApp := h.checkedCloseMatchingGlobal_eq hvalid
    ((checkedAnyApp_below hlen index).mono h.bound_le)
  rw [checkedCloseMatches, hcode, htimestamp]
  cases mode with
  | sameApp => exact hsameApp
  | fallbackSameApp => exact hsameApp
  | otherApp => exact hotherApp
  | anyApp => exact hanyApp

theorem checkedLatestMatch_eq {openStarts : SparseOpenStarts} (h : openStarts.Inside a bound)
    (hcodes : a.NonnegativeCodes) (hindex : index < a.len) (mode : SparseStopMode) :
    checkedLatestMatch a options mode index openStarts =
      .ok (sparseLatestMatch a options mode index openStarts) := by
  obtain ⟨hcode, htimestamp, -⟩ := hlen.reads hindex
  have hvalid := (checkedValid_below options hlen mode index).mono h.bound_le
  have hsameApp := h.checkedLatestSameApp_eq (hcodes index hindex)
    (EventArrays.appCode_le_max hindex) hvalid
  have hotherApp := h.checkedLatestMatchingGlobal_eq hvalid
    ((checkedOtherApp_below hlen index).mono h.bound_le)
  have hanyApp := h.checkedLatestMatchingGlobal_eq hvalid
    ((checkedAnyApp_below hlen index).mono h.bound_le)
  rw [checkedLatestMatch, hcode, htimestamp]
  cases mode with
  | sameApp => exact hsameApp
  | fallbackSameApp => exact hsameApp
  | otherApp => exact hotherApp
  | anyApp => exact hanyApp

theorem checkedAccepts_below :
    ChecksBelow a.len (checkedAccepts a options (a.len - 1))
      (acceptsEndOfStream options a (a.len - 1)) := by
  intro i hi
  obtain ⟨-, hstart, -⟩ := hlen.reads hi
  obtain ⟨-, hlast, -⟩ := hlen.reads (i := a.len - 1) (by omega)
  rw [checkedAccepts, hstart, hlast, acceptsEndOfStream]
  by_cases hlater : a.len - 1 > i
  · simp [hlater]
  · simp [hlater]

end Reads

theorem SparseOpenStarts.Inside.closeMatches {openStarts : SparseOpenStarts}
    (h : openStarts.Inside a bound) (options : MatchOptions) (mode : SparseStopMode) (index : Nat) :
    (sparseCloseMatches a options mode index openStarts).1.Inside a bound ∧
      ∀ start ∈ (sparseCloseMatches a options mode index openStarts).2, start < bound := by
  cases mode with
  | sameApp => exact h.closeSameAppMatches
  | fallbackSameApp => exact h.closeSameAppMatches
  | otherApp => exact h.closeMatchingGlobal
  | anyApp => exact h.closeMatchingGlobal

theorem SparseOpenStarts.Inside.latestMatch {openStarts : SparseOpenStarts}
    (h : openStarts.Inside a bound) (options : MatchOptions) (mode : SparseStopMode) (index : Nat) :
    (sparseLatestMatch a options mode index openStarts).1.Inside a bound ∧
      ∀ start ∈ (sparseLatestMatch a options mode index openStarts).2, start < bound := by
  cases mode with
  | sameApp => exact h.latestSameApp
  | fallbackSameApp => exact h.latestSameApp
  | otherApp => exact h.latestMatchingGlobal
  | anyApp => exact h.latestMatchingGlobal

/-- The lists are inside the arrays, and every recorded close has its reason. -/
structure SparseState.Inside (a : EventArrays) (st : SparseState) (bound : Nat) : Prop where
  openStarts : st.openStarts.Inside a bound
  classified : st.stopReasons.length = st.stopStartIndices.length

namespace SparseState.Inside

variable {st : SparseState} {openStarts : SparseOpenStarts}

theorem init (h : SparseOpenStarts.new a = .ok openStarts) : (sparseInit openStarts).Inside a 0 where
  openStarts := SparseOpenStarts.inside_new h
  classified := rfl

theorem record (h : st.Inside a bound) (hstarts : openStarts.Inside a bound) (closed : List Nat)
    (index : Nat) : (recordCloses a st openStarts closed index).Inside a bound where
  openStarts := hstarts
  classified := by
    simp only [recordCloses, classifyNewCloses, List.length_append, List.length_map,
      List.length_drop, h.classified]
    omega

theorem checkedRecord_eq (h : st.Inside a bound) (hlen : a.SameLengths resumed)
    (hindex : index < a.len) {closed : List Nat} (hclosed : ∀ start ∈ closed, start < a.len) :
    checkedRecordCloses a st openStarts closed index =
      .ok (recordCloses a st openStarts closed index) := by
  have hdrop : (st.stopStartIndices ++ closed).drop st.stopReasons.length = closed := by
    rw [h.classified, List.drop_left]
  have hslice : sliceFrom (st.stopStartIndices ++ closed) st.stopReasons.length = .ok closed := by
    rw [sliceFrom, if_pos (by simp [h.classified]), hdrop]
  have hreasons : closed.mapM (checkedCloseReason a index) = .ok (closed.map _) :=
    Stages.mapM_eq_ok_map fun start hstart => checkedCloseReason_eq hlen hindex (hclosed start hstart)
  rw [checkedRecordCloses, checkedClassify, hslice, ok_bind, hreasons, recordCloses,
    classifyNewCloses, hdrop]
  rfl

theorem checkedRecordMatch_eq (h : st.Inside a bound) (hstarts : openStarts.Inside a bound)
    (hlen : a.SameLengths resumed) (hindex : index < a.len) {matched : Option Nat}
    (hmatched : ∀ start ∈ matched, start < bound) :
    checkedRecordMatch a st openStarts matched index =
        .ok (recordMatch a st openStarts matched index) ∧
      (recordMatch a st openStarts matched index).Inside a bound := by
  cases matched with
  | none => exact ⟨h.checkedRecord_eq hlen hindex (by simp), h.record hstarts [] index⟩
  | some start =>
      have hstart : start < bound := hmatched start rfl
      have hclose : checkedRecordCloses a st (openStarts.closeStart start) [start] index = _ :=
        h.checkedRecord_eq hlen hindex (by simpa using hstart.trans_le hstarts.bound_le)
      refine ⟨?_, h.record (hstarts.mark (by simp)) [start] index⟩
      rw [checkedRecordMatch, hstarts.checkedClose_eq hstart, ok_bind, hclose]
      rfl

theorem checkedStop_eq (h : st.Inside a bound) (hlen : a.SameLengths resumed)
    (hcodes : a.NonnegativeCodes) (hindex : index < a.len) :
    checkedSparseStop a options st index = .ok (sparseStop a options st index) ∧
      (sparseStop a options st index).Inside a bound := by
  rw [checkedSparseStop, checkedStopMode_eq options hlen hindex, ok_bind, sparseStop]
  cases sparseStopMode a options index with
  | none => exact ⟨rfl, h⟩
  | some mode =>
      dsimp only
      split
      · obtain ⟨hkept, hbelow⟩ := h.openStarts.closeMatches options mode index
        rw [checkedCloseMatches_eq options hlen h.openStarts hcodes hindex, ok_bind]
        exact ⟨h.checkedRecord_eq hlen hindex fun start hstart =>
          (hbelow start hstart).trans_le h.openStarts.bound_le, h.record hkept _ index⟩
      · obtain ⟨hkept, hbelow⟩ := h.openStarts.latestMatch options mode index
        rw [checkedLatestMatch_eq options hlen h.openStarts hcodes hindex, ok_bind]
        exact h.checkedRecordMatch_eq hkept hlen hindex hbelow

theorem checkedOpen_eq (h : st.Inside a index) (hcodes : a.NonnegativeCodes) (hindex : index < a.len)
    {opener : Array Bool} (hopener : opener.size = a.len) :
    checkedSparseOpen a opener st index =
        .ok (sparseOpen a (fun i => opener.getD i false) st index) ∧
      (sparseOpen a (fun i => opener.getD i false) st index).Inside a (index + 1) := by
  rw [checkedSparseOpen, readAt_eq (hopener ▸ hindex) false, ok_bind, sparseOpen]
  split
  · have hread : readAt a.appCodes index = .ok (a.appCode index) := readAt_eq hindex 0
    rw [hread, ok_bind, h.openStarts.checkedOpen_eq hindex (hcodes index hindex)
      (EventArrays.appCode_le_max hindex)]
    exact ⟨rfl, h.openStarts.openNext hindex, h.classified⟩
  · exact ⟨rfl, h.openStarts.weaken hindex, h.classified⟩

theorem checkedPass_eq (h : st.Inside a index) (options : MatchOptions)
    (hlen : a.SameLengths resumed) (hcodes : a.NonnegativeCodes) (hindex : index < a.len)
    {opener : Array Bool} (hopener : opener.size = a.len) :
    (checkedSparseStop a options st index >>= fun stopped =>
        checkedSparseOpen a opener stopped index) =
        .ok (sparseOpen a (fun i => opener.getD i false) (sparseStop a options st index) index) ∧
      (sparseOpen a (fun i => opener.getD i false) (sparseStop a options st index) index).Inside a
        (index + 1) := by
  obtain ⟨hstop, hstopped⟩ := h.checkedStop_eq hlen hcodes hindex
  rw [hstop, ok_bind]
  exact hstopped.checkedOpen_eq hcodes hindex hopener

theorem checkedFinish_eq (h : st.Inside a a.len) (hlen : a.SameLengths resumed)
    (order : List Nat → List Nat) :
    checkedSparseFinish a options order st = .ok (sparseFinish a options order st) := by
  rw [checkedSparseFinish]
  by_cases hsome : 0 < a.len
  · rw [if_pos hsome, sparseFinish, if_pos hsome]
    dsimp only
    rw [h.openStarts.checkedFinish_eq (checkedAccepts_below options hlen)]
    rfl
  · rw [if_neg hsome]
    rfl

end SparseState.Inside

end Stops

/-- The list-based matcher finds every access in bounds. -/
theorem checkedUpdateIndices_eq (a : MatchArrays) (options : MatchOptions) :
    checkedUpdateIndices a options = matchAppUsageUpdateIndicesCore a options := by
  unfold checkedUpdateIndices matchAppUsageUpdateIndicesCore validateLengths
  by_cases hlen : a.SameLengths a.resumed
  · rw [if_pos hlen]
    simp only [ok_bind]
    cases hnew : SparseOpenStarts.new a.toEventArrays with
    | error failure => rfl
    | ok openStarts =>
        have hcodes := SparseOpenStarts.codes_of_new hnew
        obtain ⟨hrun, hend⟩ := Loop.foldlM_range_eq
          (P := fun index (st : SparseState) => st.Inside a.toEventArrays index) (SparseState.Inside.init hnew)
          fun index st hindex hst => hst.checkedPass_eq options hlen hcodes hindex hlen.2.1
        simp only [ok_bind]
        rw [hrun]
        exact hend.checkedFinish_eq hlen id
  · rw [if_neg hlen]
    rfl

/-! ## Proximity matching -/

/-- The vectors of the re-resume state have their sizes. -/
structure ReresumeState.Sized (a : OpenerArrays) (re : ReresumeState) : Prop where
  lastEventNs_size : re.lastEventNs.size = a.maxAppCode.toNat + 1
  lastWasSameStop_size : re.lastWasSameStop.size = a.maxAppCode.toNat + 1
  isReresume_size : re.isReresume.size = a.len

namespace ReresumeState.Sized

variable {a : OpenerArrays} {re : ReresumeState} {proximityNs : Int} {index : Nat}

theorem init : (reresumeInit a).Sized a where
  lastEventNs_size := Array.size_replicate
  lastWasSameStop_size := Array.size_replicate
  isReresume_size := Array.size_replicate

theorem step (h : re.Sized a) (proximityNs : Int) (index : Nat) :
    (reresumeStep a proximityNs re index).Sized a where
  lastEventNs_size := Array.size_setIfInBounds.trans h.lastEventNs_size
  lastWasSameStop_size := Array.size_setIfInBounds.trans h.lastWasSameStop_size
  isReresume_size := by
    simp only [reresumeStep]
    split
    · exact Array.size_setIfInBounds.trans h.isReresume_size
    · exact h.isReresume_size

variable (hlen : a.SameLengths a.nativeResumed)
include hlen

theorem checkedInsideGrace_eq (h : re.Sized a) {stopIndex startIndex : Nat}
    (hstop : stopIndex < a.len) (hstart : startIndex < a.len) :
    checkedInsideGrace a proximityNs re stopIndex startIndex =
      .ok (insideGrace a proximityNs re stopIndex startIndex) := by
  obtain ⟨-, hstopTime, -⟩ := hlen.reads hstop
  obtain ⟨-, hstartTime, -⟩ := hlen.reads hstart
  rw [checkedInsideGrace, readAt_eq (h.isReresume_size ▸ hstart) false, hstopTime, hstartTime,
    insideGrace]
  simp only [ok_bind]
  cases re.isReresume.getD startIndex false <;> rfl

theorem checkedOutsideGrace_eq (h : re.Sized a) (hindex : index < a.len) {candidate : Option Nat}
    (hcandidate : ∀ start ∈ candidate, start < a.len) :
    checkedOutsideGrace a proximityNs re index candidate =
      .ok (candidate.filter fun startIndex => !insideGrace a proximityNs re index startIndex) := by
  cases candidate with
  | none => rfl
  | some start =>
      rw [checkedOutsideGrace, checkedInsideGrace_eq hlen h hindex (hcandidate start rfl), ok_bind,
        Option.filter_some]
      cases insideGrace a proximityNs re index start <;> rfl

theorem checkedReresumes_eq (h : re.Sized a) (hindex : index < a.len) {slot : Nat}
    (hslot : slot = (a.appCode index).toNat) (hinside : slot < a.maxAppCode.toNat + 1) :
    checkedReresumes a proximityNs re slot index = .ok (reresumes a proximityNs re index) := by
  obtain ⟨-, htimestamp, -⟩ := hlen.reads hindex
  have hresumed : readAt a.nativeResumed index = .ok (a.isNativeResumed index) :=
    readAt_eq (hlen.2.1 ▸ hindex) false
  rw [checkedReresumes, hresumed, readAt_eq (h.lastEventNs_size ▸ hinside) none,
    readAt_eq (h.lastWasSameStop_size ▸ hinside) false, htimestamp, reresumes, ← hslot]
  simp only [ok_bind]
  cases a.isNativeResumed index with
  | false => rfl
  | true =>
      cases re.lastEventNs.getD slot none with
      | none => rfl
      | some last => cases re.lastWasSameStop.getD slot false <;> rfl

theorem checkedStep_eq (h : re.Sized a) (hopener : a.eligibleOpener.size = a.len)
    (hcodes : a.NonnegativeCodes) (hindex : index < a.len) :
    checkedReresumeStep a proximityNs re index = .ok (reresumeStep a proximityNs re index) := by
  obtain ⟨hcode, htimestamp, hsame, -⟩ := hlen.reads hindex
  have heligible : readAt a.eligibleOpener index = .ok (a.isEligible index) :=
    readAt_eq (hopener ▸ hindex) false
  have hmax := EventArrays.appCode_le_max hindex
  have hslot : asUsize (a.appCode index) = (a.appCode index).toNat :=
    asUsize_of_nonneg (hcodes index hindex)
  have hinside : (a.appCode index).toNat < a.maxAppCode.toNat + 1 := by omega
  rw [checkedReresumeStep, hcode, heligible, htimestamp, hsame]
  simp only [ok_bind, hslot, checkedReresumes_eq hlen h hindex rfl hinside,
    writeAt_eq (h.isReresume_size ▸ hindex), writeAt_eq (h.lastEventNs_size ▸ hinside),
    writeAt_eq (h.lastWasSameStop_size ▸ hinside), reresumeStep]
  cases a.isEligible index <;> rfl

end ReresumeState.Sized

section Sorted

variable {a : OpenerArrays} {options : MatchOptions} {proximityNs : Int} {re : ReresumeState}
  {index bound : Nat} (hlen : a.SameLengths a.nativeResumed)
include hlen

theorem checkedSortedStop_eq {st : SparseState} (h : st.Inside a.toEventArrays bound)
    (hre : re.Sized a) (hcodes : a.NonnegativeCodes) (hindex : index < a.len) :
    checkedSortedStop a options proximityNs re st index =
        .ok (sortedStop a options proximityNs re st index) ∧
      (sortedStop a options proximityNs re st index).Inside a.toEventArrays bound := by
  have hbound := h.openStarts.bound_le
  rw [checkedSortedStop, checkedStopMode_eq options hlen hindex, ok_bind, sortedStop]
  cases sparseStopMode a.toEventArrays options index with
  | none => exact ⟨rfl, h⟩
  | some mode =>
      dsimp only
      split
      · obtain ⟨hkept, hbelow⟩ := h.openStarts.closeMatches options mode index
        rw [checkedCloseMatches_eq options hlen h.openStarts hcodes hindex, ok_bind]
        exact ⟨h.checkedRecord_eq hlen hindex fun start hstart =>
          (hbelow start (List.mem_reverse.mp hstart)).trans_le hbound, h.record hkept _ index⟩
      · obtain ⟨hkept, hbelow⟩ := h.openStarts.latestMatch options mode index
        rw [checkedLatestMatch_eq options hlen h.openStarts hcodes hindex, ok_bind]
        split
        · rw [hre.checkedOutsideGrace_eq hlen hindex fun start hstart =>
            (hbelow start hstart).trans_le hbound, ok_bind]
          exact h.checkedRecordMatch_eq hkept hlen hindex fun start hstart =>
            hbelow start (Option.mem_filter_iff.mp hstart).1
        · exact h.checkedRecordMatch_eq hkept hlen hindex hbelow

/-- The lists and the re-resume state before a pass of the sorted matcher. -/
def SortedInside (a : OpenerArrays) (index : Nat) (st : ReresumeState × SparseState) : Prop :=
  st.1.Sized a ∧ st.2.Inside a.toEventArrays index

theorem checkedSortedStep_eq (options : MatchOptions) (proximityNs : Int)
    {st : ReresumeState × SparseState} (h : SortedInside a index st)
    (hopener : a.eligibleOpener.size = a.len) (hcodes : a.NonnegativeCodes)
    (hindex : index < a.len) :
    checkedSortedStep a options proximityNs st index = .ok (sortedStep a options proximityNs st index) ∧
      SortedInside a (index + 1) (sortedStep a options proximityNs st index) := by
  obtain ⟨hstop, hstopped⟩ := checkedSortedStop_eq hlen h.2 h.1 hcodes hindex
  obtain ⟨hopen, hopened⟩ := hstopped.checkedOpen_eq hcodes hindex hopener
  rw [checkedSortedStep, hstop, ok_bind, h.1.checkedStep_eq hlen hopener hcodes hindex, ok_bind,
    hopen]
  exact ⟨rfl, h.1.step proximityNs index, hopened⟩

theorem checkedSorted_eq (hopener : a.eligibleOpener.size = a.len) :
    checkedSorted a options proximityNs =
      matchSortedAppUsageUpdateIndicesWithProximity a options proximityNs := by
  unfold checkedSorted matchSortedAppUsageUpdateIndicesWithProximity
  split
  · rfl
  · simp only [pure_eq_ok]
    cases hnew : SparseOpenStarts.new a.toEventArrays with
    | error failure => rfl
    | ok openStarts =>
        have hcodes := SparseOpenStarts.codes_of_new hnew
        have hinit : SortedInside a 0 (reresumeInit a, sparseInit openStarts) :=
          ⟨ReresumeState.Sized.init, SparseState.Inside.init hnew⟩
        obtain ⟨hrun, -, hend⟩ := Loop.foldlM_range_eq (P := SortedInside a) hinit
          fun index st hindex hst =>
            checkedSortedStep_eq hlen options proximityNs hst hopener hcodes hindex
        simp only [ok_bind]
        rw [hrun]
        exact hend.checkedFinish_eq hlen List.reverse

end Sorted

section Legacy

/-- What the first element adds to one of the two sides. -/
theorem partition_cons (check : Nat → Bool) (start : Nat) (rest : List Nat) :
    (start :: rest).partition check =
      if check start then (start :: (rest.partition check).1, (rest.partition check).2)
      else ((rest.partition check).1, start :: (rest.partition check).2) := by
  simp only [List.partition_eq_filter_filter, List.filter_cons, Function.comp_apply]
  by_cases hcheck : check start <;> simp [hcheck]

variable {a : OpenerArrays} {options : MatchOptions} {proximityNs : Int} {re : ReresumeState}
  {index : Nat} (hlen : a.SameLengths a.nativeResumed)
include hlen

/-- The compatibility test reads a start's background flag only for another app's stop. -/
theorem checkedOtherCompatible_eq {stopIndex startIndex : Nat} (hstart : startIndex < a.len) :
    checkedOtherCompatible a.toEventArrays (a.isOtherStop stopIndex)
        (a.appCode startIndex == a.appCode stopIndex) startIndex =
      .ok (otherAppCompatible a.toEventArrays stopIndex startIndex) := by
  obtain ⟨-, -, -, -, -, hbackground⟩ := hlen.reads hstart
  rw [checkedOtherCompatible, hbackground, otherAppCompatible, bne]
  cases a.isOtherStop stopIndex && !(a.appCode startIndex == a.appCode stopIndex) <;> rfl

theorem checkedCompatible_eq {stopIndex startIndex : Nat} (hstop : stopIndex < a.len)
    (hstart : startIndex < a.len) :
    checkedCompatible options a.toEventArrays stopIndex startIndex =
      .ok (isCompatibleOpenStartForStop a.toEventArrays options stopIndex startIndex) := by
  obtain ⟨hstartCode, hstartTime, -⟩ := hlen.reads hstart
  obtain ⟨hstopCode, hstopTime, hsame, hother, hstopped, -⟩ := hlen.reads hstop
  rw [checkedCompatible, hstartCode, hstopCode, hsame, hother, hstopped, hstartTime, hstopTime]
  simp only [ok_bind, checkedOtherCompatible_eq hlen hstart]
  exact (apply_ite Except.ok _ _ _).symm

theorem checkedCloseReused_eq (hindex : index < a.len) {opens : List Nat}
    (hopens : ∀ start ∈ opens, start < a.len) :
    checkedCloseReused options a.toEventArrays index opens =
      .ok (closeReusedStarts options a.toEventArrays index opens) := by
  induction opens with
  | nil => rfl
  | cons start rest ih =>
      rw [checkedCloseReused, checkedCompatible_eq hlen hindex (hopens start List.mem_cons_self),
        ok_bind, ih fun later hlater => hopens later (List.mem_cons_of_mem start hlater)]
      exact congrArg Except.ok (partition_cons _ start rest).symm

theorem checkedSettle_eq {opens : List Nat} (hopens : ∀ start ∈ opens, start < a.len) :
    checkedSettle options a.toEventArrays (a.len - 1) opens =
      .ok (opens.partition (acceptsEndOfStream options a.toEventArrays (a.len - 1))) := by
  induction opens with
  | nil => rfl
  | cons start rest ih =>
      have haccepts := checkedAccepts_below options hlen start (hopens start List.mem_cons_self)
      rw [checkedSettle, haccepts,
        ok_bind, ih fun later hlater => hopens later (List.mem_cons_of_mem start hlater)]
      exact congrArg Except.ok (partition_cons _ start rest).symm

theorem checkedMatchedPosition_eq (hre : re.Sized a) (hindex : index < a.len)
    {opens : List (Nat × Nat)} (hopens : ∀ entry ∈ opens, entry.1 < a.len) :
    checkedMatchedPosition a options proximityNs re index opens =
      .ok (legacyMatchedPosition a options proximityNs re index opens) := by
  induction opens with
  | nil => rfl
  | cons entry older ih =>
      obtain ⟨start, position⟩ := entry
      have hstart : start < a.len := hopens (start, position) List.mem_cons_self
      obtain ⟨hstartCode, hstartTime, -⟩ := hlen.reads hstart
      obtain ⟨hcode, htimestamp, hsame, hother, hstopped, -⟩ := hlen.reads hindex
      have hlater := ih fun later hlater => hopens later (List.mem_cons_of_mem _ hlater)
      rw [checkedMatchedPosition, hstartCode, hcode, hsame, hother, hstopped, hstartTime,
        htimestamp, hlater, hre.checkedInsideGrace_eq hlen hindex hstart, legacyMatchedPosition]
      simp only [ok_bind, checkedOtherCompatible_eq hlen hstart]
      change (if (!(sameAppCompatible a.toEventArrays index start || _ ||
        fallbackCompatible a.toEventArrays options index start)) = true then _ else
        if (!isValidDuration _ _ (!fallbackCompatible a.toEventArrays options index start || _) _) =
          true then _ else
        if fallbackCompatible a.toEventArrays options index start = true then _ else _) = _
      split
      · rfl
      · split
        · rfl
        · cases fallbackCompatible a.toEventArrays options index start <;>
            cases insideGrace a proximityNs re index start <;> rfl

omit hlen in
/-- The position a scan finds is one of an entry. -/
theorem entry_of_matchedPosition {entries : List (Nat × Nat)} {position : Nat}
    (h : legacyMatchedPosition a options proximityNs re index entries = some position) :
    ∃ start, (start, position) ∈ entries := by
  rw [legacyMatchedPosition_eq, Option.bind_eq_some_iff] at h
  obtain ⟨entry, hfind, hposition⟩ := h
  split at hposition
  · cases hposition
  · obtain rfl := Option.some.inj hposition
    exact ⟨entry.1, List.mem_of_find?_eq_some hfind⟩

/-- The open starts before a pass, which are earlier events. -/
def OpensBefore (index : Nat) (l : LegacyState) : Prop :=
  ∀ start ∈ l.openStartIndices, start < index

theorem checkedLegacyRecord_eq (hindex : index < a.len) {l : LegacyState} {closed : List Nat}
    (hclosed : ∀ start ∈ closed, start < a.len) (kept : List Nat) :
    checkedLegacyRecord a.toEventArrays l closed kept index =
      .ok (legacyRecord a.toEventArrays l closed kept index) := by
  have hreasons : closed.mapM (checkedCloseReason a.toEventArrays index) = .ok (closed.map _) :=
    Stages.mapM_eq_ok_map fun start hstart => checkedCloseReason_eq hlen hindex (hclosed start hstart)
  rw [checkedLegacyRecord, hreasons]
  rfl

theorem checkedLegacyStop_eq {l : LegacyState} (h : OpensBefore index l) (hre : re.Sized a)
    (hindex : index < a.len) :
    checkedLegacyStop a options proximityNs re l index =
        .ok (legacyStop a options proximityNs re l index) ∧
      OpensBefore index (legacyStop a options proximityNs re l index) := by
  obtain ⟨-, -, hsame, hother, hstopped, -⟩ := hlen.reads hindex
  have hinside : ∀ start ∈ l.openStartIndices, start < a.len := fun start hstart =>
    (h start hstart).trans hindex
  have hentries : ∀ entry ∈ l.openStartIndices.zipIdx.reverse, entry.1 < a.len := by
    intro entry hentry
    exact hinside _ (List.fst_mem_of_mem_zipIdx (List.mem_reverse.mp hentry))
  rw [checkedLegacyStop, checkedCloseReused_eq hlen hindex hinside,
    checkedMatchedPosition_eq hlen hre hindex hentries, hsame, hother, hstopped]
  simp only [ok_bind]
  change (if (options.allowStopEventReuse && (isNormalStop a.toEventArrays index ||
      isFallbackStop a.toEventArrays options index)) = true then _
    else if (isNormalStop a.toEventArrays index ||
      isFallbackStop a.toEventArrays options index) = true then _ else _) = _ ∧ _
  unfold legacyStop
  dsimp only
  by_cases hreuse : (options.allowStopEventReuse && (isNormalStop a.toEventArrays index ||
      isFallbackStop a.toEventArrays options index)) = true
  · have hsorted : closeReusedStarts options a.toEventArrays index l.openStartIndices = (_, _) :=
      List.partition_eq_filter_filter
    simp only [if_pos hreuse, hsorted, checkedLegacyRecord_eq hlen hindex fun start hstart =>
      hinside start (List.mem_of_mem_filter hstart)]
    exact ⟨trivial, fun start hstart => h start (List.mem_of_mem_filter hstart)⟩
  · simp only [if_neg hreuse]
    by_cases hstop : (isNormalStop a.toEventArrays index ||
        isFallbackStop a.toEventArrays options index) = true
    · simp only [if_pos hstop]
      cases hposition : legacyMatchedPosition a options proximityNs re index
          l.openStartIndices.zipIdx.reverse with
      | none => exact ⟨rfl, h⟩
      | some position =>
          obtain ⟨start, hentry⟩ := entry_of_matchedPosition hposition
          have hstart : l.openStartIndices[position]? = some start :=
            List.mk_mem_zipIdx_iff_getElem?.mp (List.mem_reverse.mp hentry)
          have hremove : removeAt l.openStartIndices position = .ok
              (l.openStartIndices.getD position 0, l.openStartIndices.eraseIdx position) := by
            simp [removeAt, hstart, List.getD_eq_getElem?_getD]
          have hclosed : ∀ start ∈ [l.openStartIndices.getD position 0], start < a.len := by
            simpa [List.getD_eq_getElem?_getD, hstart] using
              hinside start (List.mem_of_getElem? hstart)
          simp only [hremove, ok_bind, checkedLegacyRecord_eq hlen hindex hclosed]
          exact ⟨trivial, fun start hstart => h start (List.mem_of_mem_eraseIdx hstart)⟩
    · simp only [if_neg hstop]
      exact ⟨rfl, h⟩

/-- The re-resume state and the open starts before a pass of the legacy matcher. -/
def LegacyInside (a : OpenerArrays) (index : Nat) (st : ReresumeState × LegacyState) : Prop :=
  st.1.Sized a ∧ OpensBefore index st.2

theorem checkedLegacyStep_eq (options : MatchOptions) (proximityNs : Int)
    {st : ReresumeState × LegacyState} (h : LegacyInside a index st)
    (hopener : a.eligibleOpener.size = a.len) (hcodes : a.NonnegativeCodes)
    (hindex : index < a.len) :
    checkedLegacyStep a options proximityNs st index = .ok (legacyStep a options proximityNs st index) ∧
      LegacyInside a (index + 1) (legacyStep a options proximityNs st index) := by
  obtain ⟨hstop, hstopped⟩ := checkedLegacyStop_eq hlen h.2 h.1 hindex
  have hopens : readAt a.eligibleOpener index = .ok (a.isEligible index) :=
    readAt_eq (hopener ▸ hindex) false
  rw [checkedLegacyStep, hstop, ok_bind, h.1.checkedStep_eq hlen hopener hcodes hindex, ok_bind,
    hopens]
  refine ⟨rfl, h.1.step proximityNs index, fun start hstart => ?_⟩
  simp only [legacyStep, legacyOpen] at hstart
  split at hstart
  · rcases List.mem_append.mp hstart with hold | hnew
    · exact (hstopped start hold).trans (Nat.lt_succ_self index)
    · exact Nat.lt_succ_of_le (List.mem_singleton.mp hnew).le
  · exact (hstopped start hstart).trans (Nat.lt_succ_self index)

theorem checkedLegacyFinish_eq {l : LegacyState} (h : OpensBefore a.len l) :
    checkedLegacyFinish a options l = .ok (legacyFinish a options l) := by
  rw [checkedLegacyFinish]
  by_cases hsome : 0 < a.len
  · rw [if_pos hsome, legacyFinish, if_pos hsome]
    dsimp only
    rw [checkedSettle_eq hlen h]
    rfl
  · rw [if_neg hsome]
    rfl

theorem checkedLegacy_eq (hopener : a.eligibleOpener.size = a.len) :
    checkedLegacy a options proximityNs =
      matchLegacyAppUsageUpdateIndicesWithProximity a options proximityNs := by
  unfold checkedLegacy matchLegacyAppUsageUpdateIndicesWithProximity
  split
  · rfl
  · case isFalse hnegative =>
    have hcodes := EventArrays.hasNegativeCode_eq_false.mp (Bool.eq_false_iff.mpr hnegative)
    have hinit : LegacyInside a 0 (reresumeInit a, legacyInit) :=
      ⟨ReresumeState.Sized.init, fun start hstart => absurd hstart List.not_mem_nil⟩
    obtain ⟨hrun, -, hend⟩ := Loop.foldlM_range_eq (P := LegacyInside a) hinit
      fun index st hindex hst =>
        checkedLegacyStep_eq hlen options proximityNs hst hopener hcodes hindex
    simp only [pure_eq_ok]
    rw [hrun]
    exact checkedLegacyFinish_eq hlen hend

end Legacy

/-- No access of the fused rule is out of bounds: with the checks it returns what it returns
without them. -/
theorem checkedOpenersCore_eq (a : OpenerArrays) (options : MatchOptions) (proximityNs : Int) :
    checkedOpenersCore a options proximityNs =
      matchAppUsageUpdateIndicesWithProximityOpenersCore a options proximityNs := by
  unfold checkedOpenersCore matchAppUsageUpdateIndicesWithProximityOpenersCore validateLengths
  by_cases hlen : a.SameLengths a.nativeResumed
  · by_cases hopener : a.eligibleOpener.size = a.len
    · rw [checkedUpdateIndices_eq, checkedSorted_eq hlen hopener, checkedLegacy_eq hlen hopener]
    · simp only [if_pos hlen, ne_eq, hopener, not_false_eq_true, if_true]
      rfl
  · rw [if_neg hlen]
    rfl

end Chronicle.Matcher
