import Chronicle.Matcher.DenseEquivalence
import Chronicle.Matcher.ProximityEquivalence

/-!
# What every result of the fused rule satisfies

The facts about openers, closes and durations that hold of every result of
`match_app_usage_update_indices_with_proximity_openers_core`, whichever of its three
implementations the proximity and the order of the timestamps select.
-/

namespace Chronicle.Matcher

open Chronicle.Library.Loop

/-- One close of a result. -/
structure Close where
  start : Nat
  event : Nat
  reason : EpisodeCloseReason
deriving DecidableEq, Repr

/-- The closes of a result, read from its parallel lists. -/
def MatchUpdateIndices.closes (u : MatchUpdateIndices) : List Close :=
  ((u.stopStartIndices.zip u.stopEventIndices).zip u.stopReasons).map fun entry =>
    { start := entry.1.1, event := entry.1.2, reason := entry.2 }

/-- The invariants of the fused rule. -/
structure FusedInvariants (a : OpenerArrays) (options : MatchOptions) (u : MatchUpdateIndices) :
    Prop where
  /-- Every eligible opener is closed or missing exactly once, and nothing else is. -/
  exactlyOnce : ∀ i, (u.stopStartIndices ++ u.missingIndices).count i =
    if i < a.len ∧ a.isEligible i = true then 1 else 0
  stopEvents_length : u.stopEventIndices.length = u.stopStartIndices.length
  stopReasons_length : u.stopReasons.length = u.stopStartIndices.length
  stopTimestamps_length : u.stopTimestampsNs.length = u.stopStartIndices.length
  missingReasons_length : u.missingReasons.length = u.missingIndices.length
  /-- A close comes after its start. -/
  later : ∀ close ∈ u.closes, close.start < close.event ∧ close.event < a.len
  /-- A closed duration is not negative, and only a fallback close may exceed the threshold. -/
  duration : ∀ close ∈ u.closes, 0 ≤ a.timestamp close.event - a.timestamp close.start ∧
    (a.timestamp close.event - a.timestamp close.start ≤ options.longDurationThresholdNs ∨
      (close.reason = .activityStoppedFallback ∧ options.applyThresholdToFallback = false))
  /-- Without reuse no event closes two starts, apart from the final sweep. -/
  singleUse : options.allowStopEventReuse = false →
    ((u.closes.filter fun close => close.reason != .endOfStream).map Close.event).Nodup
  /-- A background start is never closed by another app. -/
  background : ∀ close ∈ u.closes, close.reason = .otherAppStop →
    a.isBackground close.start = false

section Closes

variable {a : EventArrays} {options : MatchOptions} {stopIndex startIndex : Nat}

/-- A duration that passes is not negative and, if it is checked, within the threshold. -/
theorem isValidDuration_iff {startNs stopNs thresholdNs : Int} {enforce : Bool} :
    isValidDuration startNs stopNs enforce thresholdNs = true ↔
      0 ≤ stopNs - startNs ∧ (enforce = true → stopNs - startNs ≤ thresholdNs) := by
  unfold isValidDuration
  dsimp only
  split
  · next hneg => simp; omega
  · next hneg => cases enforce <;> simp <;> omega

/-- Only a fallback close goes without the threshold, and it carries the fallback reason. -/
theorem compatible_duration
    (h : isCompatibleOpenStartForStop a options stopIndex startIndex = true) :
    0 ≤ a.timestamp stopIndex - a.timestamp startIndex ∧
      (a.timestamp stopIndex - a.timestamp startIndex ≤ options.longDurationThresholdNs ∨
        (legacyCloseReason a stopIndex startIndex = .activityStoppedFallback ∧
          options.applyThresholdToFallback = false)) := by
  unfold isCompatibleOpenStartForStop at h
  split at h
  · cases h
  · obtain ⟨hnonneg, hthreshold⟩ := isValidDuration_iff.mp h
    refine ⟨hnonneg, ?_⟩
    by_cases hfallback : fallbackCompatible a options stopIndex startIndex = true
    · cases happly : options.applyThresholdToFallback with
      | true => exact .inl (hthreshold (by simp [happly]))
      | false =>
          refine .inr ⟨?_, rfl⟩
          unfold fallbackCompatible isNormalStop at hfallback
          simp only [Bool.and_eq_true, Bool.not_eq_true', Bool.or_eq_false_iff] at hfallback
          simp [legacyCloseReason, hfallback.1.1.1, hfallback.1.1.2]
    · exact .inl (hthreshold (by simp [hfallback]))

/-- Another app's stop never closes a background start. -/
theorem reason_background (h : legacyCloseReason a stopIndex startIndex = .otherAppStop) :
    a.isBackground startIndex = false := by
  unfold legacyCloseReason at h
  dsimp only at h
  split at h
  · cases h
  · split at h
    · next hother =>
        rw [Bool.and_eq_true] at hother
        simpa using hother.2
    · cases h

end Closes

section Settled

variable {a : OpenerArrays} {options : MatchOptions} {l : LegacyState} {stops missing : List Nat}

/-- The closes of a settled ledger: its own, then the swept ones. -/
theorem settle_closes (h : Accounted a.toEventArrays options a.isEligible a.len l) :
    (settle a.toEventArrays l stops missing).closes =
      (l.closes.map fun entry =>
          { start := entry.1, event := entry.2,
            reason := legacyCloseReason a.toEventArrays entry.2 entry.1 }) ++
        stops.map fun start =>
          { start := start, event := a.len - 1, reason := .endOfStream } := by
  have hswept : (stops.map fun start => (start, a.len - 1)).zip
      (stops.map fun _ => EpisodeCloseReason.endOfStream) =
        stops.map fun start => ((start, a.len - 1), .endOfStream) :=
    List.zip_map'
  unfold MatchUpdateIndices.closes settle
  dsimp only
  rw [h.closes_append, h.reasons, List.zip_append (by simp), List.map_append, hswept,
    ← List.map_prod_left_eq_zip, List.map_map, List.map_map]
  rfl

/-- A close of a settled ledger was made by a stop or by the final sweep. -/
theorem settle_close_cases (h : Accounted a.toEventArrays options a.isEligible a.len l)
    (hperm : (stops ++ missing).Perm l.openStartIndices)
    (hstops : ∀ start ∈ stops,
      acceptsEndOfStream options a.toEventArrays (a.len - 1) start = true)
    {close : Close} (hclose : close ∈ (settle a.toEventArrays l stops missing).closes) :
    (close.reason = legacyCloseReason a.toEventArrays close.event close.start ∧
        close.start < close.event ∧ close.event < a.len ∧
        isCompatibleOpenStartForStop a.toEventArrays options close.event close.start = true) ∨
      (close.reason = .endOfStream ∧ (close.start < close.event ∧ close.event < a.len) ∧
        0 ≤ a.timestamp close.event - a.timestamp close.start ∧
        a.timestamp close.event - a.timestamp close.start ≤ options.longDurationThresholdNs) := by
  rw [settle_closes h, List.mem_append] at hclose
  rcases hclose with hclose | hclose
  · obtain ⟨entry, hentry, rfl⟩ := List.mem_map.mp hclose
    exact .inl ⟨rfl, h.closes_ok entry hentry⟩
  · obtain ⟨start, hstart, rfl⟩ := List.mem_map.mp hclose
    have hopen := hperm.mem_iff.mp (List.mem_append_left _ hstart)
    have hlt := (h.mem_start (List.mem_append_right _ hopen)).1
    have haccept := hstops start hstart
    rw [acceptsEndOfStream, Bool.and_eq_true, decide_eq_true_eq, isValidDuration_iff] at haccept
    exact .inr ⟨rfl, ⟨haccept.1, Nat.sub_one_lt (by omega)⟩, haccept.2.1, haccept.2.2 rfl⟩

/-- A settled ledger satisfies the invariants. -/
theorem Accounted.settle_invariants
    (h : Accounted a.toEventArrays options a.isEligible a.len l)
    (hperm : (stops ++ missing).Perm l.openStartIndices)
    (hstops : ∀ start ∈ stops,
      acceptsEndOfStream options a.toEventArrays (a.len - 1) start = true) :
    FusedInvariants a options (settle a.toEventArrays l stops missing) where
  exactlyOnce := by
    intro i
    -- closed by a stop, closed at the end or missing: the three lists share out the starts
    have hall : ((l.stopStartIndices ++ stops) ++ missing).Perm l.startIndices := by
      rw [List.append_assoc]
      exact (hperm.append_left _).trans h.perm
    refine (hall.count_eq i).trans ?_
    rw [h.starts]
    split
    · next hi =>
        refine List.count_eq_one_of_mem (List.nodup_range.filter _) ?_
        exact List.mem_filter.mpr ⟨List.mem_range.mpr hi.1, hi.2⟩
    · next hi =>
        refine List.count_eq_zero_of_not_mem fun hmem => hi ?_
        rwa [List.mem_filter, List.mem_range] at hmem
  stopEvents_length := by simp [settle, h.events_length]
  stopReasons_length := by
    have hclosed := congrArg List.length h.closes_fst
    simp only [List.length_map] at hclosed
    simp [settle, h.reasons, hclosed]
  stopTimestamps_length := by simp [settle]
  missingReasons_length := by simp [settle]
  later := by
    intro close hclose
    rcases settle_close_cases h hperm hstops hclose with ⟨_, hlater, hevent, _⟩ | ⟨_, hlater, _⟩
    · exact ⟨hlater, hevent⟩
    · omega
  duration := by
    intro close hclose
    rcases settle_close_cases h hperm hstops hclose with ⟨hreason, _, _, hok⟩ | ⟨_, _, hvalid⟩
    · rw [hreason]
      exact compatible_duration hok
    · exact ⟨hvalid.1, .inl hvalid.2⟩
  singleUse := by
    intro hreuse
    rw [settle_closes h, List.filter_append, List.map_append]
    -- the closes of the final sweep are exempt, so only the stops of the loop are compared
    have hswept : ((stops.map fun start => (⟨start, a.len - 1, .endOfStream⟩ : Close)).filter
        fun close => close.reason != .endOfStream) = [] := by
      rw [List.filter_eq_nil_iff]
      simp
    rw [hswept, List.map_nil, List.append_nil]
    refine (List.Sublist.map _ List.filter_sublist).nodup ?_
    rw [List.map_map]
    have hevents : l.closes.map Prod.snd = l.stopEventIndices :=
      List.map_snd_zip (Nat.le_of_eq h.events_length)
    simpa [Function.comp_def, hevents] using h.single_use hreuse
  background := by
    intro close hclose hother
    rcases settle_close_cases h hperm hstops hclose with ⟨hreason, _⟩ | ⟨hreason, _⟩
    · exact reason_background (hreason.symm.trans hother)
    · rw [hreason] at hother
      cases hother

/-- Every eligible opener of a result with the invariants is closed or missing. -/
theorem FusedInvariants.mem {u : MatchUpdateIndices} (h : FusedInvariants a options u) {i : Nat}
    (hi : i < a.len) (heligible : a.isEligible i = true) :
    i ∈ u.stopStartIndices ++ u.missingIndices := by
  have hcount := h.exactlyOnce i
  rw [if_pos ⟨hi, heligible⟩] at hcount
  exact List.count_pos_iff.mp (by omega)

end Settled

/-! ## The three implementations -/

section Dispatch

variable {a : OpenerArrays} {options : MatchOptions} {proximityNs : Int} {u : MatchUpdateIndices}

/-- Lists are made only for non-negative codes. -/
theorem new_codes {a : EventArrays} {s : SparseOpenStarts} (h : SparseOpenStarts.new a = .ok s) :
    a.NonnegativeCodes := by
  rw [← EventArrays.hasNegativeCode_eq_false]
  unfold SparseOpenStarts.new at h
  cases hnegative : a.hasNegativeCode with
  | false => rfl
  | true =>
      rw [hnegative] at h
      cases h

/-- Comparing neighbours compares all. -/
theorem pairwise_of_neighbours {items : List Int}
    (h : (items.zip items.tail).all (fun pair => decide (pair.1 ≤ pair.2)) = true) :
    items.Pairwise (· ≤ ·) := by
  rw [← List.isChain_iff_pairwise]
  induction items with
  | nil => exact .nil
  | cons first rest ih =>
      cases rest with
      | nil => exact .singleton first
      | cons second rest =>
          simp only [List.tail_cons, List.zip_cons_cons, List.all_cons, Bool.and_eq_true,
            decide_eq_true_eq] at h
          exact .cons_cons h.1 (ih h.2)

/-- The sorted check of the dispatcher. -/
theorem sorted_of_timestampsSorted (hlen : a.timestampNs.size = a.len)
    (h : timestampsSorted a.timestampNs = true) : a.SortedTimestamps := by
  have hpairwise := List.pairwise_iff_getElem.mp (pairwise_of_neighbours h)
  intro i j hij hj
  have hj' : j < a.timestampNs.size := by omega
  have hi' : i < a.timestampNs.size := by omega
  simp only [EventArrays.timestamp, Array.getD_eq_getD_getElem?, Array.getElem?_eq_getElem hi',
    Array.getElem?_eq_getElem hj', Option.getD_some]
  rcases Nat.lt_or_eq_of_le hij with hlt | rfl
  · exact hpairwise i j (by simpa using hi') (by simpa using hj') hlt
  · exact Int.le_refl _

/-- A legacy result has the invariants. -/
theorem legacy_invariants
    (h : matchLegacyAppUsageUpdateIndicesWithProximity a options proximityNs = .ok u) :
    FusedInvariants a options u := by
  have hcodes : a.NonnegativeCodes := by
    rw [← EventArrays.hasNegativeCode_eq_false]
    cases hnegative : a.hasNegativeCode with
    | false => rfl
    | true =>
        rw [matchLegacyAppUsageUpdateIndicesWithProximity, hnegative] at h
        cases h
  have hledger := legacy_run_accounted a options proximityNs
  rw [matchLegacy_eq hcodes, legacyFinish_eq hledger.open_nil] at h
  rw [← Except.ok.inj h]
  exact hledger.settle_invariants (List.filter_append_perm _ _)
    fun start hstart => (List.mem_filter.mp hstart).2

/-- A result of the sorted matcher has the invariants when the openers fit a list cell. -/
theorem sorted_invariants_iff (hsorted : a.SortedTimestamps)
    (h : matchSortedAppUsageUpdateIndicesWithProximity a options proximityNs = .ok u) :
    FusedInvariants a options u ↔ ∀ i < a.len, a.isEligible i = true → i < 2 ^ 31 := by
  have hcodes : a.NonnegativeCodes := by
    unfold matchSortedAppUsageUpdateIndicesWithProximity at h
    split at h
    · cases h
    · cases hnew : SparseOpenStarts.new a.toEventArrays with
      | error failure =>
          rw [hnew] at h
          cases h
      | ok s => exact new_codes hnew
  constructor
  · exact fun hinv i hi heligible => matchSorted_below hcodes h i (hinv.mem hi heligible)
  · exact fun hfit =>
      legacy_invariants ((matchSorted_eq_matchLegacy hcodes hsorted hfit).symm.trans h)

/-- A result of the sparse matcher has the invariants when the openers fit a list cell. -/
theorem sparse_invariants_iff (hlen : a.SameLengths a.eligibleOpener)
    (h : matchAppUsageUpdateIndicesCore { a with resumed := a.eligibleOpener } options = .ok u) :
    FusedInvariants a options u ↔ ∀ i < a.len, a.isEligible i = true → i < 2 ^ 31 := by
  obtain ⟨s, hnew⟩ : ∃ s, SparseOpenStarts.new a.toEventArrays = .ok s := by
    cases hnew : SparseOpenStarts.new a.toEventArrays with
    | ok s => exact ⟨s, rfl⟩
    | error failure =>
        rw [matchAppUsageUpdateIndicesCore, validateLengths, if_pos hlen, hnew] at h
        cases h
  have hcodes := new_codes hnew
  constructor
  · exact fun hinv i hi heligible => matchSparse_below hlen hcodes h i (hinv.mem hi heligible)
  · intro hfit
    obtain ⟨l, hledger, hstores⟩ := sparse_run_stores options hcodes hnew hfit
    have hfinish := Except.ok.inj ((matchSparse_eq hlen hnew).symm.trans h)
    have hsettle := hfinish.symm.trans (hstores.finish id fun items => .refl items)
    rw [hsettle]
    refine hledger.settle_invariants ?_ fun start hstart => ?_
    · exact ((List.reverse_perm _).append (List.reverse_perm _)).trans
        (List.filter_append_perm _ _)
    · exact (List.mem_filter.mp (List.mem_reverse.mp hstart)).2

/-- How a result of the fused matcher came about. -/
theorem openersCore_cases
    (h : matchAppUsageUpdateIndicesWithProximityOpenersCore a options proximityNs = .ok u) :
    (a.SameLengths a.nativeResumed ∧ a.eligibleOpener.size = a.len ∧ 0 ≤ proximityNs) ∧
      ((proximityNs = 0 ∧
          matchAppUsageUpdateIndicesCore { a with resumed := a.eligibleOpener } options = .ok u) ∨
        (0 < proximityNs ∧ timestampsSorted a.timestampNs = true ∧
          matchSortedAppUsageUpdateIndicesWithProximity a options proximityNs = .ok u) ∨
        (0 < proximityNs ∧ timestampsSorted a.timestampNs = false ∧
          matchLegacyAppUsageUpdateIndicesWithProximity a options proximityNs = .ok u)) := by
  unfold matchAppUsageUpdateIndicesWithProximityOpenersCore validateLengths at h
  by_cases hlen : a.SameLengths a.nativeResumed
  swap
  · rw [if_neg hlen] at h
    cases h
  by_cases heligible : a.eligibleOpener.size = a.len
  swap
  · rw [if_pos hlen] at h
    simp only [ne_eq, heligible, not_false_eq_true, if_true] at h
    cases h
  by_cases hneg : proximityNs < 0
  · rw [if_pos hlen] at h
    simp only [ne_eq, heligible, not_true_eq_false, if_false, hneg, if_true] at h
    cases h
  rw [if_pos hlen] at h
  simp only [ne_eq, heligible, not_true_eq_false, if_false, hneg] at h
  refine ⟨⟨hlen, heligible, by omega⟩, ?_⟩
  by_cases hzero : proximityNs = 0
  · rw [hzero] at h
    exact .inl ⟨hzero, h⟩
  · cases hsorted : timestampsSorted a.timestampNs with
    | true =>
        simp only [hzero, if_false, hsorted, if_true] at h
        exact .inr (.inl ⟨by omega, rfl, h⟩)
    | false =>
        simp only [hzero, if_false, hsorted] at h
        exact .inr (.inr ⟨by omega, rfl, h⟩)

/-- Every result of the fused matcher has the invariants, exactly when its openers fit a list
cell or its input takes the legacy path, which has no list cells. -/
theorem fused_result_invariants_iff (a : OpenerArrays) (options : MatchOptions)
    (proximityNs : Int) (u : MatchUpdateIndices)
    (h : matchAppUsageUpdateIndicesWithProximityOpenersCore a options proximityNs = .ok u) :
    FusedInvariants a options u ↔
      (0 < proximityNs ∧ timestampsSorted a.timestampNs = false) ∨
        ∀ i < a.len, a.isEligible i = true → i < 2 ^ 31 := by
  obtain ⟨⟨hlen, heligible, -⟩, ⟨hzero, hsparse⟩ | ⟨hpos, hsorted, hresult⟩ |
    ⟨hpos, hunsorted, hresult⟩⟩ := openersCore_cases h
  · rw [sparse_invariants_iff ⟨hlen.1, heligible, hlen.2.2⟩ hsparse]
    simp [hzero]
  · rw [sorted_invariants_iff (sorted_of_timestampsSorted hlen.1 hsorted) hresult]
    simp [hsorted]
  · simp [hpos, hunsorted, legacy_invariants hresult]

end Dispatch

/-! ## Concrete inputs -/

/-- The teardown rows with the last two events in the wrong order. -/
def unsortedRows : OpenerArrays := { teardownRows with timestampNs := #[0, 10, 12, 11] }

theorem fused_result_invariants_unsorted :
    ∃ u, matchAppUsageUpdateIndicesWithProximityOpenersCore unsortedRows fallbackOptions 5 =
        .ok u ∧
      (FusedInvariants unsortedRows fallbackOptions u ↔
        (0 < (5 : Int) ∧ timestampsSorted unsortedRows.timestampNs = false) ∨
          ∀ i < unsortedRows.len, unsortedRows.isEligible i = true → i < 2 ^ 31) := by
  refine ⟨{
    startIndices := [0, 2], stopStartIndices := [0], stopEventIndices := [1],
    missingIndices := [2], stopReasons := [.sameAppStop], missingReasons := [.unobserved],
    stopTimestampsNs := [none] }, ?_, fused_result_invariants_iff _ _ _ _ ?_⟩ <;> decide +kernel

/-- The sparse path returns a result without the wide opener. -/
theorem openerAfter_result (n : Nat) :
    ∃ u, matchAppUsageUpdateIndicesWithProximityOpenersCore (openerAfter n) fallbackOptions 0 =
        .ok u ∧ ∀ i ∈ u.stopStartIndices ++ u.missingIndices, i < 2 ^ 31 := by
  have hshape := openerAfter_sameLengths n
  have hlen : (openerAfter n).SameLengths (openerAfter n).eligibleOpener :=
    ⟨hshape.1.1, hshape.2, hshape.1.2.2⟩
  obtain ⟨s, hnew⟩ := SparseOpenStarts.new_ok (openerAfter_codes n)
  obtain ⟨u, hsparse⟩ : ∃ u, matchAppUsageUpdateIndicesCore
      { openerAfter n with resumed := (openerAfter n).eligibleOpener } fallbackOptions = .ok u :=
    ⟨_, matchSparse_eq hlen hnew⟩
  refine ⟨u, ?_, matchSparse_below hlen (openerAfter_codes n) hsparse⟩
  unfold matchAppUsageUpdateIndicesWithProximityOpenersCore validateLengths
  rw [if_pos hshape.1]
  simp only [ne_eq, hshape.2, not_true_eq_false, if_false, Int.lt_irrefl, if_true]
  exact hsparse

theorem fused_loses_wide_opener :
    ∃ u, matchAppUsageUpdateIndicesWithProximityOpenersCore (openerAfter 2147483648)
        fallbackOptions 0 = .ok u ∧
      ¬ FusedInvariants (openerAfter 2147483648) fallbackOptions u := by
  generalize hn : 2147483648 = n
  obtain ⟨u, hrun, hbelow⟩ := openerAfter_result n
  refine ⟨u, hrun, fun hinv => ?_⟩
  have hlast := hbelow n (hinv.mem (by rw [openerAfter_len]; omega) (openerAfter_isEligible n))
  omega

end Chronicle.Matcher
