import Chronicle.Matcher.CellLimit
import Chronicle.Matcher.Ledger

/-!
# The matchers keep a ledger

Every stop of the sparse and of the legacy matcher is a `ClosesSome` step of the ledger it keeps.
On non-decreasing timestamps the sorted proximity matcher stores the legacy matcher's ledger, step
by step. List cells hold 32 bits, so an opener is stored only if its index is below `2 ^ 31`.
-/

namespace Chronicle.Matcher

open Chronicle.Library.Loop SparseOpenStarts

/-- The sparse state `st` stores the ledger `l`. -/
structure Stores (a : EventArrays) (bound : Nat) (st : SparseState) (l : LegacyState) : Prop where
  lists : st.openStarts.Represents a bound l.openStartIndices
  starts : st.startIndices = l.startIndices
  stopStarts : st.stopStartIndices = l.stopStartIndices
  stopEvents : st.stopEventIndices = l.stopEventIndices
  reasons : st.stopReasons = l.stopReasons
  reasons_length : l.stopReasons.length = l.stopStartIndices.length

namespace Stores

variable {a : EventArrays} {options : MatchOptions} {opener : Nat → Bool} {bound : Nat}
variable {st : SparseState} {l : LegacyState}

theorem init {s : SparseOpenStarts} (h : SparseOpenStarts.new a = .ok s) :
    Stores a 0 (sparseInit s) legacyInit where
  lists := SparseOpenStarts.new_represents h
  starts := rfl
  stopStarts := rfl
  stopEvents := rfl
  reasons := rfl
  reasons_length := rfl

/-- Recording closes: the reasons of the new closes are the only ones appended. -/
theorem record (h : Stores a bound st l) {s : SparseOpenStarts} {kept : List Nat}
    (hlists : s.Represents a bound kept) (closed : List Nat) (index : Nat) :
    Stores a bound (recordCloses a st s closed index) (legacyRecord a l closed kept index) where
  lists := hlists
  starts := h.starts
  stopStarts := by simp [recordCloses, legacyRecord, h.stopStarts]
  stopEvents := by simp [recordCloses, legacyRecord, h.stopEvents]
  reasons := by
    simp [recordCloses, legacyRecord, classifyNewCloses, h.reasons, h.stopStarts,
      h.reasons_length]
  reasons_length := by simp [legacyRecord, h.reasons_length]

/-- A list-based matcher settles the open starts it stores, newest first, in its own order. -/
theorem finish (h : Stores a a.len st l) (order : List Nat → List Nat)
    (horder : ∀ items, (order items).Perm items) :
    sparseFinish a options order st =
      settle a l (order (settledStops a options l).reverse)
        (order (settledMissing a options l).reverse) := by
  have hfinish := h.lists.finish_found (acceptsEndOfStream options a (a.len - 1))
  rw [List.filter_reverse, List.filter_reverse] at hfinish
  unfold sparseFinish
  split
  · dsimp only
    generalize st.openStarts.finishOpenStarts (acceptsEndOfStream options a (a.len - 1)) = swept
      at hfinish ⊢
    obtain ⟨updated, stops, missing⟩ := swept
    obtain ⟨rfl, rfl⟩ := Prod.mk.inj hfinish
    have hlength : ∀ stops : List Nat, l.stopReasons.length ≤
        (l.stopStartIndices ++ stops).length := by
      intro stops
      rw [h.reasons_length, List.length_append]
      omega
    simp only [h.starts, h.stopStarts, h.stopEvents, h.reasons, settle, settledStops,
      settledMissing, resize_append _ _ _ (hlength _), h.reasons_length]
    simp [resize, List.map_const']
  · next hlen =>
      have hopen : l.openStartIndices = [] := by
        refine List.eq_nil_iff_forall_not_mem.mpr fun start hstart => ?_
        have hlt := (h.lists.mem_open hstart).1
        omega
      have hnil : order [] = [] := (horder []).eq_nil
      simp [h.starts, h.stopStarts, h.stopEvents, h.reasons, settle, settledStops,
        settledMissing, hopen, hnil]

/-- Opening: the index of an opener has to fit a list cell. -/
theorem opened (h : Stores a bound st l) (hlt : bound < a.len)
    (hfit : opener bound = true → bound < 2 ^ 31) :
    Stores a (bound + 1) (sparseOpen a opener st bound) (legacyOpen opener l bound) := by
  unfold sparseOpen legacyOpen
  by_cases hopener : opener bound = true
  · rw [if_pos hopener, if_pos hopener]
    exact {
      lists := h.lists.openNext hlt (hfit hopener)
      starts := by simp [h.starts]
      stopStarts := h.stopStarts
      stopEvents := h.stopEvents
      reasons := h.reasons
      reasons_length := h.reasons_length }
  · rw [if_neg hopener, if_neg hopener]
    exact { h with lists := h.lists.advance hlt }

end Stores

section Steps

variable {a : EventArrays} {options : MatchOptions} {index : Nat}
variable {st : SparseState} {l : LegacyState}

/-- Recording no close changes nothing. -/
theorem legacyRecord_nil (l : LegacyState) :
    legacyRecord a l [] l.openStartIndices index = l := by
  simp [legacyRecord]

/-- An event that closes nothing. -/
theorem ClosesSome.nothing (l : LegacyState) : ClosesSome a options index l l :=
  ⟨[], l.openStartIndices, .refl _, by simp, by simp, (legacyRecord_nil l).symm⟩

/-- Removing found open starts from a list without duplicates splits it. -/
theorem perm_removed {opens found : List Nat} (hnodup : opens.Nodup)
    (hfound : found.Nodup) (hsub : ∀ start ∈ found, start ∈ opens) :
    (found ++ opens.filter fun start => start ∉ found).Perm opens := by
  refine (List.perm_ext_iff_of_nodup ?_ hnodup).mpr fun start => ?_
  · refine List.nodup_append.mpr ⟨hfound, hnodup.filter _, ?_⟩
    intro start hstart other hother heq
    have hnot := (List.mem_filter.mp hother).2
    simp [← heq, hstart] at hnot
  · by_cases hstart : start ∈ found
    · simp [hstart, hsub start hstart]
    · simp [hstart]

/-- Reuse closes the matching starts. -/
theorem reuse_closes (hcodes : a.NonnegativeCodes) (hindex : index < a.len)
    (hstores : Stores a index st l) {mode : SparseStopMode}
    (hmode : sparseStopMode a options index = some mode)
    (hreuse : options.allowStopEventReuse = true) :
    ∃ l', ClosesSome a options index l l' ∧
      Stores a index (recordCloses a st
        (sparseCloseMatches a options mode index st.openStarts).1
        (sparseCloseMatches a options mode index st.openStarts).2 index) l' := by
  obtain ⟨hlists, hsub, hcompat⟩ :=
    sparseCloseMatches_spec hcodes hindex hmode hstores.lists
  have hnodup := hstores.lists.nodup
  have hfound : (sparseCloseMatches a options mode index st.openStarts).2.Nodup :=
    hsub.nodup (List.nodup_reverse.mpr hnodup)
  refine ⟨_, ⟨_, _, ?_, hcompat, by simp [hreuse], rfl⟩, hstores.record hlists _ index⟩
  exact perm_removed hnodup hfound fun start hstart => List.mem_reverse.mp (hsub.mem hstart)

/-- Without reuse at most the one match is closed. -/
theorem single_closes (hcodes : a.NonnegativeCodes) (hindex : index < a.len)
    (hstores : Stores a index st l) {mode : SparseStopMode}
    (hmode : sparseStopMode a options index = some mode) :
    ∃ l', ClosesSome a options index l l' ∧
      Stores a index (recordMatch a st
        (sparseLatestMatch a options mode index st.openStarts).1
        (sparseLatestMatch a options mode index st.openStarts).2 index) l' := by
  obtain ⟨hlists, hspec⟩ := sparseLatestMatch_spec hcodes hindex hmode hstores.lists
  cases hmatched : (sparseLatestMatch a options mode index st.openStarts).2 with
  | none =>
      refine ⟨l, .nothing l, ?_⟩
      have hrecord := hstores.record hlists [] index
      rwa [legacyRecord_nil] at hrecord
  | some start =>
      obtain ⟨hmem, hcompat⟩ := hspec start hmatched
      refine ⟨_, ⟨[start], _, ?_, by simpa using hcompat, by simp, rfl⟩,
        hstores.record (hlists.close hmem) _ index⟩
      exact perm_removed hstores.lists.nodup (List.nodup_singleton _) (by simpa using hmem)

/-- The sparse matcher's stop is a ledger step. -/
theorem sparseStop_closes (hcodes : a.NonnegativeCodes) (hindex : index < a.len)
    (hstores : Stores a index st l) :
    ∃ l', ClosesSome a options index l l' ∧ Stores a index (sparseStop a options st index) l' := by
  unfold sparseStop
  cases hmode : sparseStopMode a options index with
  | none => exact ⟨l, .nothing l, hstores⟩
  | some mode =>
      dsimp only
      split_ifs with hreuse
      · exact reuse_closes hcodes hindex hstores hmode hreuse
      · exact single_closes hcodes hindex hstores hmode

end Steps

section ProximitySteps

variable {a : OpenerArrays} {options : MatchOptions} {proximityNs : Int} {index : Nat}
variable {re : ReresumeState} {st : SparseState} {l : LegacyState}

/-- The legacy scan returns the newest compatible start, unless that start is in its grace. -/
theorem legacyMatchedPosition_eq (entries : List (Nat × Nat)) :
    legacyMatchedPosition a options proximityNs re index entries =
      (entries.find? fun entry =>
        isCompatibleOpenStartForStop a.toEventArrays options index entry.1).bind fun entry =>
          if fallbackCompatible a.toEventArrays options index entry.1 &&
            insideGrace a proximityNs re index entry.1 then none else some entry.2 := by
  induction entries with
  | nil => rfl
  | cons entry older ih =>
      obtain ⟨start, position⟩ := entry
      rw [legacyMatchedPosition, List.find?_cons]
      unfold isCompatibleOpenStartForStop
      dsimp only
      split_ifs with hkind hvalid <;> simp_all [isCompatibleOpenStartForStop]

/-- What a legacy scan that may match closes: the newest compatible start outside its grace. -/
def legacyFound (a : OpenerArrays) (options : MatchOptions) (proximityNs : Int)
    (re : ReresumeState) (index : Nat) (opens : List Nat) : Option Nat :=
  (opens.reverse.find? (isCompatibleOpenStartForStop a.toEventArrays options index)).filter
    fun start => !(fallbackCompatible a.toEventArrays options index start &&
      insideGrace a proximityNs re index start)

/-- The position the legacy scan matches is the position of the start it finds. -/
theorem legacyMatchedPosition_spec (a : OpenerArrays) (options : MatchOptions)
    (proximityNs : Int) (re : ReresumeState) (index : Nat) {opens : List Nat}
    (hnodup : opens.Nodup) :
    (legacyMatchedPosition a options proximityNs re index opens.zipIdx.reverse = none ∧
        legacyFound a options proximityNs re index opens = none) ∨
      ∃ position start,
        legacyMatchedPosition a options proximityNs re index opens.zipIdx.reverse =
            some position ∧
          legacyFound a options proximityNs re index opens = some start ∧
          opens.getD position 0 = start ∧
          opens.eraseIdx position = opens.filter fun other => other ∉ [start] := by
  unfold legacyFound
  rw [legacyMatchedPosition_eq, find_reverse_eq]
  cases hfind : opens.zipIdx.reverse.find? fun entry =>
      isCompatibleOpenStartForStop a.toEventArrays options index entry.1 with
  | none => exact .inl ⟨rfl, rfl⟩
  | some entry =>
      obtain ⟨start, position⟩ := entry
      have hget := getElem_of_find_position hfind
      cases hgrace : (fallbackCompatible a.toEventArrays options index start &&
          insideGrace a proximityNs re index start) with
      | true => exact .inl ⟨by simpa using hgrace, by simpa [Option.filter] using hgrace⟩
      | false =>
          refine .inr ⟨position, start, by simpa using hgrace,
            by simpa [Option.filter] using hgrace, ?_, eraseIdx_eq_filter hnodup hget⟩
          simp [List.getD_eq_getElem?_getD, hget]

/-- The legacy matcher's stop is a ledger step. -/
theorem legacyStop_closes (hnodup : l.openStartIndices.Nodup) :
    ClosesSome a.toEventArrays options index l
      (legacyStop a options proximityNs re l index) := by
  unfold legacyStop
  dsimp only
  split_ifs with hreuse hstop
  · have hallow : options.allowStopEventReuse = true := by simp_all
    refine ⟨_, _, ?_, ?_, by simp [hallow], rfl⟩
    · simp only [closeReusedStarts, List.partition_eq_filter_filter]
      exact List.filter_append_perm _ _
    · intro start hstart
      simp only [closeReusedStarts, List.partition_eq_filter_filter] at hstart
      exact (List.mem_filter.mp hstart).2
  · obtain ⟨hnone, -⟩ | ⟨position, start, hposition, hfound, hget, herase⟩ :=
      legacyMatchedPosition_spec a options proximityNs re index hnodup
    · rw [hnone]
      exact .nothing l
    · rw [hposition]
      dsimp only
      rw [hget, herase]
      have hfind := (Option.filter_eq_some_iff.mp hfound).1
      have hmem := List.mem_reverse.mp (List.mem_of_find?_eq_some hfind)
      exact ⟨[start], _,
        perm_removed hnodup (List.nodup_singleton _) (by simpa using hmem),
        by simpa using List.find?_some hfind, by simp, rfl⟩
  · exact .nothing l

/-- On non-decreasing timestamps the sorted matcher's stop is the legacy matcher's. -/
theorem sortedStop_eq_legacyStop (options : MatchOptions) (proximityNs : Int)
    (re : ReresumeState) (hcodes : a.NonnegativeCodes) (hsorted : a.SortedTimestamps) (hindex : index < a.len) (hstores : Stores a.toEventArrays index st l) :
    Stores a.toEventArrays index (sortedStop a options proximityNs re st index)
      (legacyStop a options proximityNs re l index) := by
  unfold sortedStop legacyStop
  dsimp only
  rw [isStop_eq]
  cases hmode : sparseStopMode a.toEventArrays options index with
  | none => simpa using hstores
  | some mode =>
      simp only [Option.isSome_some, Bool.and_true, if_true]
      by_cases hreuse : options.allowStopEventReuse = true
      · -- with reuse every compatible open start closes at this stop
        rw [if_pos hreuse, if_pos hreuse]
        have hfound := sparseCloseMatches_sorted hcodes hsorted hindex hmode hstores.lists
        have hlists := (sparseCloseMatches_spec hcodes hindex hmode hstores.lists).1
        rw [hfound] at hlists ⊢
        simp only [closeReusedStarts, List.partition_eq_filter_filter, List.reverse_reverse]
        refine hstores.record ?_ _ index
        have hkept : (l.openStartIndices.filter fun start =>
              start ∉ (l.openStartIndices.filter
                (isCompatibleOpenStartForStop a.toEventArrays options index)).reverse) =
            l.openStartIndices.filter
              (not ∘ isCompatibleOpenStartForStop a.toEventArrays options index) := by
          apply List.filter_congr
          intro start hstart
          simp [hstart]
        rwa [hkept] at hlists
      · rw [if_neg hreuse, if_neg hreuse]
        -- without reuse the latest compatible start closes, unless the grace period spares it
        have hlists := (sparseLatestMatch_spec hcodes hindex hmode hstores.lists).1
        have hmatched : (if mode = SparseStopMode.fallbackSameApp then
              (sparseLatestMatch a.toEventArrays options mode index st.openStarts).2.filter
                fun startIndex => !insideGrace a proximityNs re index startIndex
            else (sparseLatestMatch a.toEventArrays options mode index st.openStarts).2) =
            legacyFound a options proximityNs re index l.openStartIndices := by
          rw [sparseLatestMatch_sorted hcodes hsorted hindex hmode hstores.lists]
          unfold legacyFound
          cases hfind : l.openStartIndices.reverse.find?
              (isCompatibleOpenStartForStop a.toEventArrays options index) with
          | none => simp
          | some start =>
              have hfallback := fallbackCompatible_eq hmode (List.find?_some hfind)
              by_cases hmode' : mode = .fallbackSameApp <;>
                simp [hfallback, hmode', Option.filter]
        rw [hmatched]
        obtain ⟨hnone, hfound⟩ | ⟨position, start, hposition, hfound, hget, herase⟩ :=
          legacyMatchedPosition_spec a options proximityNs re index hstores.lists.nodup
        · rw [hnone, hfound]
          have hrecord := hstores.record hlists [] index
          rwa [legacyRecord_nil] at hrecord
        · rw [hposition, hfound]
          dsimp only
          rw [hget, herase]
          have hfind := (Option.filter_eq_some_iff.mp hfound).1
          have hmem := List.mem_reverse.mp (List.mem_of_find?_eq_some hfind)
          exact hstores.record (hlists.close hmem) _ index

end ProximitySteps

/-! ## Whole runs -/

section Runs

variable {a : EventArrays} {options : MatchOptions} {opener : Nat → Bool}

/-- A run of the sparse matcher stores an accounted ledger. -/
theorem sparse_run_stores (options : MatchOptions) (hcodes : a.NonnegativeCodes) {s : SparseOpenStarts}
    (hnew : SparseOpenStarts.new a = .ok s)
    (hfit : ∀ i < a.len, opener i = true → i < 2 ^ 31) :
    ∃ l, Accounted a options opener a.len l ∧
      Stores a a.len ((List.range a.len).foldl
        (fun st index => sparseOpen a opener (sparseStop a options st index) index)
        (sparseInit s)) l := by
  refine foldl_range_induction
    (P := fun n st => ∃ l, Accounted a options opener n l ∧ Stores a n st l)
    ⟨legacyInit, .init, .init hnew⟩ ?_
  rintro index st hindex ⟨l, hledger, hstores⟩
  obtain ⟨l', hcloses, hstores'⟩ := sparseStop_closes hcodes hindex hstores
  exact ⟨_, hledger.step hcloses, hstores'.opened hindex (hfit index hindex)⟩

end Runs

section ProximityRuns

variable {a : OpenerArrays} {options : MatchOptions} {proximityNs : Int}

/-- A run of the legacy matcher keeps an accounted ledger. -/
theorem legacy_run_accounted (a : OpenerArrays) (options : MatchOptions) (proximityNs : Int) :
    Accounted a.toEventArrays options a.isEligible a.len
    ((List.range a.len).foldl (legacyStep a options proximityNs)
      (reresumeInit a, legacyInit)).2 := by
  refine foldl_range_induction
    (P := fun n (st : ReresumeState × LegacyState) =>
      Accounted a.toEventArrays options a.isEligible n st.2) .init ?_
  intro index st _ hledger
  exact hledger.step (legacyStop_closes hledger.nodup.of_append_right)

/-- On non-decreasing timestamps the sorted run stores the legacy run's ledger. -/
theorem sorted_run_stores (options : MatchOptions) (proximityNs : Int) (hcodes : a.NonnegativeCodes) (hsorted : a.SortedTimestamps)
    {s : SparseOpenStarts} (hnew : SparseOpenStarts.new a.toEventArrays = .ok s)
    (hfit : ∀ i < a.len, a.isEligible i = true → i < 2 ^ 31) :
    Stores a.toEventArrays a.len
      ((List.range a.len).foldl (sortedStep a options proximityNs)
        (reresumeInit a, sparseInit s)).2
      ((List.range a.len).foldl (legacyStep a options proximityNs)
        (reresumeInit a, legacyInit)).2 := by
  refine (foldl_range_lockstep
    (R := fun n (st : ReresumeState × SparseState) (ot : ReresumeState × LegacyState) =>
      st.1 = ot.1 ∧ Stores a.toEventArrays n st.2 ot.2) ⟨rfl, .init hnew⟩ ?_).2
  · rintro index ⟨re, st⟩ ⟨re', l⟩ hindex ⟨rfl, hstores⟩
    have hstop := sortedStop_eq_legacyStop options proximityNs re hcodes hsorted hindex hstores
    exact ⟨rfl, hstop.opened hindex (hfit index hindex)⟩

/-- A sorted run never closes or reports an index from `2 ^ 31` on. -/
theorem sorted_run_below {s : SparseOpenStarts}
    (hnew : SparseOpenStarts.new a.toEventArrays = .ok s) :
    ((List.range a.len).foldl (sortedStep a options proximityNs)
      (reresumeInit a, sparseInit s)).2.Below := by
  refine foldl_range_induction
    (P := fun _ (st : ReresumeState × SparseState) => st.2.Below) (.init hnew) ?_
  intro index st _ hbelow
  exact (hbelow.sortedStop index).opened a.isEligible index

end ProximityRuns

end Chronicle.Matcher
