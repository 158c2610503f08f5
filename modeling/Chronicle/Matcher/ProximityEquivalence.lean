import Chronicle.Matcher.Refinement

/-!
# The sorted proximity matcher against the legacy one

On non-decreasing timestamps both return the same indices in the same order, exactly when every
opener's index fits a list cell.
-/

namespace Chronicle.Matcher

section Equivalence

variable {a : OpenerArrays} {options : MatchOptions} {proximityNs : Int}

/-- A largest code of non-negative codes asks for a vector that exists. -/
theorem maxAppCode_nonneg {a : EventArrays} (hcodes : a.NonnegativeCodes) : 0 ≤ a.maxAppCode := by
  by_cases hlen : 0 < a.len
  · exact Int.le_trans (hcodes 0 hlen) (EventArrays.appCode_le_max hlen)
  · have hempty : a.appCodes = #[] := Array.eq_empty_of_size_eq_zero (by
      have hsize : ¬ 0 < a.appCodes.size := hlen
      omega)
    simp [EventArrays.maxAppCode, hempty]

/-- What the sorted matcher returns on non-negative codes. -/
theorem matchSorted_eq (hcodes : a.NonnegativeCodes) {s : SparseOpenStarts}
    (hnew : SparseOpenStarts.new a.toEventArrays = .ok s) :
    matchSortedAppUsageUpdateIndicesWithProximity a options proximityNs =
      .ok (sparseFinish a.toEventArrays options List.reverse
        ((List.range a.len).foldl (sortedStep a options proximityNs)
          (reresumeInit a, sparseInit s)).2) := by
  have hmax := maxAppCode_nonneg hcodes
  unfold matchSortedAppUsageUpdateIndicesWithProximity
  rw [if_neg (by omega), hnew]
  rfl

/-- What the legacy matcher returns on non-negative codes. -/
theorem matchLegacy_eq (hcodes : a.NonnegativeCodes) :
    matchLegacyAppUsageUpdateIndicesWithProximity a options proximityNs =
      .ok (legacyFinish a options ((List.range a.len).foldl (legacyStep a options proximityNs)
        (reresumeInit a, legacyInit)).2) := by
  have hnegative := EventArrays.hasNegativeCode_eq_false.mpr hcodes
  unfold matchLegacyAppUsageUpdateIndicesWithProximity
  rw [hnegative]
  rfl

/-- With openers that fit a list cell both matchers return the same indices. -/
theorem matchSorted_eq_matchLegacy (hcodes : a.NonnegativeCodes) (hsorted : a.SortedTimestamps)
    (hfit : ∀ i < a.len, a.isEligible i = true → i < 2 ^ 31) :
    matchSortedAppUsageUpdateIndicesWithProximity a options proximityNs =
      matchLegacyAppUsageUpdateIndicesWithProximity a options proximityNs := by
  obtain ⟨s, hnew⟩ := SparseOpenStarts.new_ok hcodes
  have hstores := sorted_run_stores options proximityNs hcodes hsorted hnew hfit
  rw [matchSorted_eq hcodes hnew, matchLegacy_eq hcodes,
    hstores.finish _ fun items => List.reverse_perm items,
    legacyFinish_eq (legacy_run_accounted a options proximityNs).open_nil, List.reverse_reverse, List.reverse_reverse]

/-- The legacy matcher accounts for every opener. -/
theorem matchLegacy_reports (options : MatchOptions) (proximityNs : Int) (hcodes : a.NonnegativeCodes) {i : Nat} (hi : i < a.len)
    (heligible : a.isEligible i = true) :
    ∃ u, matchLegacyAppUsageUpdateIndicesWithProximity a options proximityNs = .ok u ∧
      i ∈ u.stopStartIndices ++ u.missingIndices := by
  have hledger := legacy_run_accounted a options proximityNs
  refine ⟨_, matchLegacy_eq hcodes, ?_⟩
  rw [legacyFinish_eq hledger.open_nil]
  have hstart : i ∈ (List.range a.len).filter a.isEligible :=
    List.mem_filter.mpr ⟨List.mem_range.mpr hi, heligible⟩
  rw [← hledger.starts, ← hledger.perm.mem_iff] at hstart
  simp only [settle, settledStops, settledMissing, List.append_assoc, List.mem_append,
    List.mem_filter] at hstart ⊢
  refine hstart.imp_right fun hopen => ?_
  cases acceptsEndOfStream options a.toEventArrays (a.len - 1) i with
  | true => exact .inl ⟨hopen, rfl⟩
  | false => exact .inr ⟨hopen, rfl⟩

/-- The sorted matcher reports no index that does not fit a list cell. -/
theorem matchSorted_below (hcodes : a.NonnegativeCodes) {u : MatchUpdateIndices}
    (h : matchSortedAppUsageUpdateIndicesWithProximity a options proximityNs = .ok u) :
    ∀ i ∈ u.stopStartIndices ++ u.missingIndices, i < 2 ^ 31 := by
  obtain ⟨s, hnew⟩ := SparseOpenStarts.new_ok hcodes
  rw [matchSorted_eq hcodes hnew] at h
  rw [← Except.ok.inj h]
  exact (sorted_run_below hnew).finish fun items => List.reverse_perm items

/-- Equal results leave no opener beyond the reach of a list cell. -/
theorem fits_of_matchSorted_eq_matchLegacy (hcodes : a.NonnegativeCodes)
    (heq : matchSortedAppUsageUpdateIndicesWithProximity a options proximityNs =
      matchLegacyAppUsageUpdateIndicesWithProximity a options proximityNs)
    {i : Nat} (hi : i < a.len) (heligible : a.isEligible i = true) : i < 2 ^ 31 := by
  obtain ⟨u, hlegacy, hmem⟩ := matchLegacy_reports options proximityNs hcodes hi heligible
  exact matchSorted_below hcodes (heq.trans hlegacy) i hmem

/-- The fast path is the legacy oracle exactly on inputs whose openers fit a list cell. -/
theorem sorted_proximity_matches_legacy_iff (a : OpenerArrays) (options : MatchOptions)
    (proximityNs : Int) (hcodes : a.NonnegativeCodes) (hsorted : a.SortedTimestamps) :
    matchSortedAppUsageUpdateIndicesWithProximity a options proximityNs =
        matchLegacyAppUsageUpdateIndicesWithProximity a options proximityNs ↔
      ∀ i < a.len, a.isEligible i = true → i < 2 ^ 31 :=
  ⟨fun heq _ hi heligible => fits_of_matchSorted_eq_matchLegacy hcodes heq hi heligible,
    matchSorted_eq_matchLegacy hcodes hsorted⟩

end Equivalence

/-! ## Concrete inputs -/

/-- An app that resumes, stops, re-resumes at once and gets a stray `Activity Stopped`. -/
def teardownRows : OpenerArrays where
  appCodes := #[0, 0, 0, 0]
  timestampNs := #[0, 10, 11, 12]
  sameStop := #[false, true, false, false]
  otherStop := #[false, false, false, false]
  stopped := #[false, false, false, true]
  background := #[false, false, false, false]
  eligibleOpener := #[true, false, true, false]
  nativeResumed := #[true, false, true, false]

/-- Reuse off, the fallback on without a threshold. -/
def fallbackOptions : MatchOptions where
  allowStopEventReuse := false
  useActivityStoppedAsFallback := true
  applyThresholdToFallback := false
  longDurationThresholdNs := 1000

theorem sorted_proximity_matches_legacy_teardown :
    matchSortedAppUsageUpdateIndicesWithProximity teardownRows fallbackOptions 5 =
        matchLegacyAppUsageUpdateIndicesWithProximity teardownRows fallbackOptions 5 ↔
      ∀ i < teardownRows.len, teardownRows.isEligible i = true → i < 2 ^ 31 := by
  have hcodes : ∀ i < teardownRows.len, 0 ≤ teardownRows.appCode i := by decide
  have htimes : ∀ j < teardownRows.len, ∀ i ≤ j,
      teardownRows.timestamp i ≤ teardownRows.timestamp j := by decide
  exact sorted_proximity_matches_legacy_iff teardownRows fallbackOptions 5 hcodes
    fun i j hij hj => htimes j hj i hij

theorem sorted_proximity_loses_wide_opener :
    ((openerAfter 2147483648).SameLengths (openerAfter 2147483648).nativeResumed ∧
        (openerAfter 2147483648).eligibleOpener.size = (openerAfter 2147483648).len ∧
        (openerAfter 2147483648).NonnegativeCodes ∧ (openerAfter 2147483648).SortedTimestamps) ∧
      matchSortedAppUsageUpdateIndicesWithProximity (openerAfter 2147483648) fallbackOptions 5 ≠
        matchLegacyAppUsageUpdateIndicesWithProximity (openerAfter 2147483648) fallbackOptions
          5 := by
  generalize hn : 2147483648 = n
  have hlengths := openerAfter_sameLengths n
  refine ⟨⟨hlengths.1, hlengths.2, openerAfter_codes n, openerAfter_sorted n⟩, fun heq => ?_⟩
  have hfit := fits_of_matchSorted_eq_matchLegacy (openerAfter_codes n) heq (i := n)
    (by rw [openerAfter_len]; omega) (openerAfter_isEligible n)
  omega

end Chronicle.Matcher
