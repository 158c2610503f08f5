import Chronicle.Matcher.Refinement

/-!
# The sparse matcher against the dense one

Writing the sparse result into dense arrays gives the dense matcher's result. Both matchers close
the same starts at each stop. The sparse one lists them newest first, which the arrays do not
show.
-/

namespace Chronicle.Matcher

open Chronicle.Library.Loop

/-- `reconstruct_sparse_output`: dense arrays from the sparse result. -/
def reconstructSparseOutput (a : EventArrays) (updates : MatchUpdateIndices) : MatchOutput where
  startNs := writeAll (Array.replicate a.len (-1))
    (updates.startIndices.map fun start => (start, a.timestamp start))
  stopNs := writeAll (Array.replicate a.len (-1))
    ((updates.stopStartIndices.zip updates.stopEventIndices).map fun entry =>
      (entry.1, a.timestamp entry.2))
  missing := writeAll (Array.replicate a.len false)
    (updates.missingIndices.map fun start => (start, true))

section Dense

variable {a : MatchArrays} {options : MatchOptions} {index : Nat}

/-- The starts that a stop closes by the dense rule, oldest first. -/
def ruleCloses (a : EventArrays) (options : MatchOptions) (index : Nat) (opens : List Nat) :
    List Nat :=
  if (sparseStopMode a options index).isSome then
    if options.allowStopEventReuse then opens.filter (isCompatibleOpenStartForStop a options index)
    else (opens.reverse.find? (isCompatibleOpenStartForStop a options index)).toList
  else []

/-- The rule closes open starts that are compatible, and one at most without reuse. -/
theorem ruleCloses_spec (a : EventArrays) (options : MatchOptions) (index : Nat)
    {opens : List Nat} (hnodup : opens.Nodup) :
    (ruleCloses a options index opens).Nodup ∧
      (∀ start ∈ ruleCloses a options index opens, start ∈ opens ∧
        isCompatibleOpenStartForStop a options index start = true) ∧
      (options.allowStopEventReuse = false → (ruleCloses a options index opens).length ≤ 1) := by
  unfold ruleCloses
  split_ifs with hstop hreuse
  · refine ⟨hnodup.filter _, fun start hstart => List.mem_filter.mp hstart, by simp [hreuse]⟩
  · cases hfind : opens.reverse.find? (isCompatibleOpenStartForStop a options index) with
    | none => simp
    | some start =>
        have hmem := List.mem_reverse.mp (List.mem_of_find?_eq_some hfind)
        have hcompat := List.find?_some hfind
        simp [hmem, hcompat]
  · simp

/-- A dense stop writes the rule's closes and removes them from the open starts. -/
theorem denseStop_eq {st : DenseState} (hnodup : st.openStartIndices.Nodup) :
    denseStop a options st index =
      { st with
        stopNs := writeAll st.stopNs
          ((ruleCloses a.toEventArrays options index st.openStartIndices).map fun start =>
            (start, a.timestamp index))
        openStartIndices := st.openStartIndices.filter fun start =>
          start ∉ ruleCloses a.toEventArrays options index st.openStartIndices } := by
  unfold denseStop ruleCloses
  dsimp only
  rw [isStop_eq]
  cases hmode : (sparseStopMode a.toEventArrays options index).isSome with
  | false => simp
  | true =>
      simp only [Bool.and_true, if_true]
      split_ifs with hreuse
      · simp only [closeReusedStarts, List.partition_eq_filter_filter, writeAll, List.foldl_map]
        congr 1
        apply List.filter_congr
        intro start hstart
        simp [hstart]
      · rw [nearestCompatibleOpenStartForStop, find_reverse_eq]
        cases hfind : st.openStartIndices.zipIdx.reverse.find? fun entry =>
            isCompatibleOpenStartForStop a.toEventArrays options index entry.1 with
        | none => simp
        | some entry =>
            obtain ⟨start, position⟩ := entry
            have hget := getElem_of_find_position hfind
            simp only [Option.map_some, eraseIdx_eq_filter hnodup hget, Option.toList_some,
              List.getD_eq_getElem?_getD, hget, Option.getD_some]
            rfl

/-- The end of the stream writes the accepted ends and flags the other open starts. -/
theorem denseFinish_eq (lastIndex : Nat) (opens : List Nat) (st : DenseState) :
    opens.foldl (denseFinishStep a options lastIndex) st =
      { st with
        stopNs := writeAll st.stopNs
          ((opens.filter (acceptsEndOfStream options a.toEventArrays lastIndex)).map fun start =>
            (start, a.timestamp lastIndex))
        missing := writeAll st.missing
          ((opens.filter fun start =>
            !acceptsEndOfStream options a.toEventArrays lastIndex start).map fun start =>
              (start, true)) } := by
  induction opens generalizing st with
  | nil => rfl
  | cons start rest ih =>
      rw [List.foldl_cons, ih]
      cases haccept : acceptsEndOfStream options a.toEventArrays lastIndex start <;>
        simp [denseFinishStep, haccept, writeAll]

end Dense

section Mirror

variable {a : MatchArrays} {options : MatchOptions} {index : Nat}

/-- The dense arrays show what the ledger lists. -/
structure Mirrors (a : MatchArrays) (d : DenseState) (l : LegacyState) : Prop where
  opens : d.openStartIndices = l.openStartIndices
  starts : d.startNs = writeAll (Array.replicate a.len (-1))
    (l.startIndices.map fun start => (start, a.timestamp start))
  stops : d.stopNs = writeAll (Array.replicate a.len (-1))
    (l.closes.map fun entry => (entry.1, a.timestamp entry.2))
  missing : d.missing = Array.replicate a.len false

/-- On sorted timestamps a sparse stop closes what the rule closes, in some order. -/
theorem sparseStop_sorted (options : MatchOptions) {a : EventArrays} {st : SparseState} {l : LegacyState}
    (hcodes : a.NonnegativeCodes) (hsorted : a.SortedTimestamps) (hindex : index < a.len)
    (hstores : Stores a index st l) :
    ∃ closed, closed.Perm (ruleCloses a options index l.openStartIndices) ∧
      Stores a index (sparseStop a options st index)
        (legacyRecord a l closed (l.openStartIndices.filter fun start =>
          start ∉ ruleCloses a options index l.openStartIndices) index) := by
  unfold sparseStop ruleCloses
  cases hmode : sparseStopMode a options index with
  | none => exact ⟨[], by simp, by simpa [legacyRecord_nil] using hstores⟩
  | some mode =>
      simp only [Option.isSome_some, if_true]
      split_ifs with hreuse
      · have hfound := sparseCloseMatches_sorted hcodes hsorted hindex hmode hstores.lists
        have hlists := (sparseCloseMatches_spec hcodes hindex hmode hstores.lists).1
        rw [hfound] at hlists ⊢
        refine ⟨_, List.reverse_perm _, hstores.record ?_ _ index⟩
        simpa only [List.mem_reverse] using hlists
      · have hlists := (sparseLatestMatch_spec hcodes hindex hmode hstores.lists).1
        rw [sparseLatestMatch_sorted hcodes hsorted hindex hmode hstores.lists]
        cases hfind : l.openStartIndices.reverse.find?
            (isCompatibleOpenStartForStop a options index) with
        | none =>
            have hrecord := hstores.record hlists [] index
            exact ⟨[], by simp, by simpa [recordMatch] using hrecord⟩
        | some start =>
            have hmem := List.mem_reverse.mp (List.mem_of_find?_eq_some hfind)
            exact ⟨[start], by simp, hstores.record (hlists.close hmem) _ index⟩

/-- Recording the rule's closes, in any order, mirrors the dense stop. -/
theorem Mirrors.stop {d : DenseState} {l : LegacyState} (h : Mirrors a d l)
    (hledger : Accounted a.toEventArrays options a.isResumed index l) {closed : List Nat}
    (hperm : closed.Perm (ruleCloses a.toEventArrays options index l.openStartIndices)) :
    ClosesSome a.toEventArrays options index l
        (legacyRecord a.toEventArrays l closed (l.openStartIndices.filter fun start =>
          start ∉ ruleCloses a.toEventArrays options index l.openStartIndices) index) ∧
      Mirrors a (denseStop a options d index)
        (legacyRecord a.toEventArrays l closed (l.openStartIndices.filter fun start =>
          start ∉ ruleCloses a.toEventArrays options index l.openStartIndices) index) := by
  have hopens : l.openStartIndices.Nodup := hledger.nodup.of_append_right
  obtain ⟨hnodup, hrule, hone⟩ := ruleCloses_spec a.toEventArrays options index hopens
  refine ⟨⟨closed, _, ?_, ?_, ?_, rfl⟩, ?_⟩
  · exact (hperm.append_right _).trans
      (perm_removed hopens hnodup fun start hstart => (hrule start hstart).1)
  · exact fun start hstart => (hrule start (hperm.mem_iff.mp hstart)).2
  · intro hreuse
    rw [hperm.length_eq]
    exact hone hreuse
  · rw [denseStop_eq (by rw [h.opens]; exact hopens), h.opens]
    have hcloses : (legacyRecord a.toEventArrays l closed (l.openStartIndices.filter fun start =>
          start ∉ ruleCloses a.toEventArrays options index l.openStartIndices) index).closes =
        l.closes ++ closed.map fun start => (start, index) := hledger.closes_append _ _
    exact {
      opens := rfl
      starts := h.starts
      stops := by
        rw [hcloses, List.map_append, writeAll_append, ← h.stops]
        refine writeAll_perm ?_ ?_
        · rw [List.map_map]
          exact (hperm.symm.map _)
        · simpa [Function.comp_def] using hnodup
      missing := h.missing }

/-- Opening mirrors the dense opening. -/
theorem Mirrors.opened {d : DenseState} {l : LegacyState} (h : Mirrors a d l) (index : Nat) :
    Mirrors a (denseOpen a d index) (legacyOpen a.isResumed l index) := by
  unfold denseOpen legacyOpen
  split
  · exact {
      opens := by simp [h.opens]
      starts := by simp [h.starts, writeAll]
      stops := h.stops
      missing := h.missing }
  · exact h

/-- The sparse and the dense run go together. -/
theorem sparse_run_mirrors (options : MatchOptions) (hcodes : a.NonnegativeCodes) (hsorted : a.SortedTimestamps)
    {s : SparseOpenStarts} (hnew : SparseOpenStarts.new a.toEventArrays = .ok s)
    (hfit : ∀ i < a.len, a.isResumed i = true → i < 2 ^ 31) :
    ∃ l, Accounted a.toEventArrays options a.isResumed a.len l ∧
      Stores a.toEventArrays a.len ((List.range a.len).foldl
        (fun st index => sparseOpen a.toEventArrays a.isResumed
          (sparseStop a.toEventArrays options st index) index) (sparseInit s)) l ∧
      Mirrors a ((List.range a.len).foldl
        (fun st index => denseOpen a (denseStop a options st index) index) (denseInit a)) l := by
  refine foldl_range_lockstep
    (R := fun n st d => ∃ l, Accounted a.toEventArrays options a.isResumed n l ∧
      Stores a.toEventArrays n st l ∧ Mirrors a d l)
    ⟨legacyInit, .init, .init hnew, ⟨rfl, rfl, rfl, rfl⟩⟩ ?_
  rintro index st d hindex ⟨l, hledger, hstores, hmirrors⟩
  obtain ⟨closed, hperm, hstores'⟩ :=
    sparseStop_sorted options hcodes hsorted hindex hstores
  obtain ⟨hcloses, hmirrors'⟩ := hmirrors.stop hledger hperm
  exact ⟨_, hledger.step hcloses, hstores'.opened hindex (hfit index hindex),
    hmirrors'.opened index⟩

/-- A dense run mirrors a ledger on every input. -/
theorem dense_run_mirrors (a : MatchArrays) (options : MatchOptions) :
    ∃ l, Accounted a.toEventArrays options a.isResumed a.len l ∧
      Mirrors a ((List.range a.len).foldl
        (fun st index => denseOpen a (denseStop a options st index) index) (denseInit a)) l := by
  refine foldl_range_induction
    (P := fun n d => ∃ l, Accounted a.toEventArrays options a.isResumed n l ∧ Mirrors a d l)
    ⟨legacyInit, .init, ⟨rfl, rfl, rfl, rfl⟩⟩ ?_
  rintro index d hindex ⟨l, hledger, hmirrors⟩
  obtain ⟨hcloses, hmirrors'⟩ := hmirrors.stop hledger (.refl _)
  exact ⟨_, hledger.step hcloses, hmirrors'.opened index⟩

end Mirror

section Results

variable {a : MatchArrays} {options : MatchOptions}

/-- What the dense matcher returns. -/
def denseResult (a : MatchArrays) (options : MatchOptions) : MatchOutput :=
  let st := (List.range a.len).foldl
    (fun st index => denseOpen a (denseStop a options st index) index) (denseInit a)
  let final := st.openStartIndices.foldl (denseFinishStep a options (a.len - 1))
    { st with openStartIndices := [] }
  { startNs := final.startNs, stopNs := final.stopNs, missing := final.missing }

theorem matchAppUsageCore_eq (hlen : a.SameLengths a.resumed) :
    matchAppUsageCore a options = .ok (denseResult a options) := by
  rw [matchAppUsageCore, validateLengths, if_pos hlen]
  rfl

/-- What the sparse matcher returns on non-negative codes. -/
theorem matchSparse_eq (hlen : a.SameLengths a.resumed) {s : SparseOpenStarts}
    (hnew : SparseOpenStarts.new a.toEventArrays = .ok s) :
    matchAppUsageUpdateIndicesCore a options =
      .ok (sparseFinish a.toEventArrays options id ((List.range a.len).foldl
        (fun st index => sparseOpen a.toEventArrays a.isResumed
          (sparseStop a.toEventArrays options st index) index) (sparseInit s))) := by
  rw [matchAppUsageUpdateIndicesCore, validateLengths, if_pos hlen, hnew]
  rfl

/-- The dense result, from the ledger that the dense run mirrors. -/
theorem Mirrors.denseResult_eq {l : LegacyState} (h : Mirrors a ((List.range a.len).foldl
      (fun st index => denseOpen a (denseStop a options st index) index) (denseInit a)) l)
    (hledger : Accounted a.toEventArrays options a.isResumed a.len l) :
    denseResult a options = reconstructSparseOutput a.toEventArrays
      (settle a.toEventArrays l (settledStops a.toEventArrays options l)
        (settledMissing a.toEventArrays options l)) := by
  unfold denseResult
  dsimp only
  rw [denseFinish_eq, h.opens, h.starts, h.stops, h.missing]
  simp only [reconstructSparseOutput, settle, settledStops, settledMissing]
  rw [hledger.closes_append, List.map_append, writeAll_append, List.map_map]
  rfl

/-- The order of the last closes and of the missing starts does not show in the arrays. -/
theorem reconstruct_settle_perm {a : EventArrays} {opener : Nat → Bool} {l : LegacyState}
    (hledger : Accounted a options opener a.len l) {stops missing stops' missing' : List Nat}
    (hstops : stops'.Perm stops) (hmissing : missing'.Perm missing)
    (hnodup : (l.stopStartIndices ++ stops).Nodup) (hnodup' : missing.Nodup) :
    reconstructSparseOutput a (settle a l stops' missing') =
      reconstructSparseOutput a (settle a l stops missing) := by
  have hfirst : ∀ swept : List Nat, ((l.closes ++ swept.map fun start =>
      (start, a.len - 1)).map fun entry => (entry.1, a.timestamp entry.2)).map Prod.fst =
        l.stopStartIndices ++ swept := by
    intro swept
    simp [Function.comp_def, ← hledger.closes_fst]
  simp only [reconstructSparseOutput, settle, MatchOutput.mk.injEq, true_and,
    hledger.closes_append]
  constructor
  · refine (writeAll_perm (((hstops.symm.map _).append_left _).map _) ?_).symm
    rw [hfirst]
    exact hnodup
  · refine (writeAll_perm (hmissing.symm.map _) ?_).symm
    simpa [Function.comp_def] using hnodup'

/-- Rebuilding the dense arrays from the sparse result gives the dense result, and no start is
closed twice. -/
def RebuildsDense (a : MatchArrays) (options : MatchOptions) : Prop :=
  ∃ updates, matchAppUsageUpdateIndicesCore a options = .ok updates ∧
    matchAppUsageCore a options = .ok (reconstructSparseOutput a.toEventArrays updates) ∧
    updates.stopStartIndices.Nodup

/-- The settled ends are open starts. -/
theorem Accounted.settled_nodup {a : EventArrays} {opener : Nat → Bool} {l : LegacyState}
    (hledger : Accounted a options opener a.len l) :
    (l.stopStartIndices ++ settledStops a options l).Nodup :=
  hledger.nodup.sublist (List.filter_sublist.append_left _)

/-- With openers that fit a list cell the sparse result rebuilds the dense one. -/
theorem rebuildsDense_of_fits (hlen : a.SameLengths a.resumed) (hcodes : a.NonnegativeCodes)
    (hsorted : a.SortedTimestamps) (hfit : ∀ i < a.len, a.isResumed i = true → i < 2 ^ 31) :
    RebuildsDense a options := by
  obtain ⟨s, hnew⟩ := SparseOpenStarts.new_ok hcodes
  obtain ⟨l, hledger, hstores, hmirrors⟩ :=
    sparse_run_mirrors options hcodes hsorted hnew hfit
  have hnodup := hledger.settled_nodup
  refine ⟨_, matchSparse_eq hlen hnew, ?_, ?_⟩
  · rw [matchAppUsageCore_eq hlen, hmirrors.denseResult_eq hledger,
      hstores.finish id fun items => .refl items]
    have hmissing : (settledMissing a.toEventArrays options l).Nodup :=
      hledger.nodup.of_append_right.filter _
    rw [id, id, reconstruct_settle_perm hledger (List.reverse_perm _) (List.reverse_perm _)
      hnodup hmissing]
  · rw [hstores.finish id fun items => .refl items]
    exact (((List.reverse_perm _).append_left _).nodup_iff).mpr hnodup

/-- A run of the sparse matcher reports no index that does not fit a list cell. -/
theorem matchSparse_below (hlen : a.SameLengths a.resumed) (hcodes : a.NonnegativeCodes)
    {u : MatchUpdateIndices} (h : matchAppUsageUpdateIndicesCore a options = .ok u) :
    ∀ i ∈ u.stopStartIndices ++ u.missingIndices, i < 2 ^ 31 := by
  obtain ⟨s, hnew⟩ := SparseOpenStarts.new_ok hcodes
  rw [matchSparse_eq hlen hnew] at h
  rw [← Except.ok.inj h]
  refine SparseState.Below.finish ?_ fun items => .refl items
  refine foldl_range_induction (P := fun _ (st : SparseState) => st.Below) (.init hnew) ?_
  intro index st _ hbelow
  exact (hbelow.sparseStop index).opened a.isResumed index

/-- A start that is neither closed nor missing leaves its cells untouched. -/
theorem reconstruct_untouched {a : EventArrays} {u : MatchUpdateIndices} {i : Nat}
    (h : i ∉ u.stopStartIndices ++ u.missingIndices) :
    (reconstructSparseOutput a u).stopNs.getD i (-1) = -1 ∧
      (reconstructSparseOutput a u).missing.getD i false = false := by
  have hfill : ∀ {α : Type} (value : α), (Array.replicate a.len value).getD i value = value := by
    intro α value
    rw [Array.getD_eq_getD_getElem?, Array.getElem?_replicate]
    split <;> rfl
  rw [List.mem_append, not_or] at h
  constructor
  · refine (writeAll_other fun hmem => h.1 ?_).trans (hfill _)
    obtain ⟨entry, hentry, rfl⟩ := List.mem_map.mp hmem
    obtain ⟨pair, hpair, rfl⟩ := List.mem_map.mp hentry
    exact (List.of_mem_zip hpair).1
  · refine (writeAll_other fun hmem => h.2 ?_).trans (hfill _)
    simpa [Function.comp_def] using hmem

/-- The dense result shows an end or a missing flag for every opener. -/
theorem denseResult_settles (hsentinel : ∀ i < a.len, a.timestamp i ≠ -1) {i : Nat}
    (hi : i < a.len) (hresumed : a.isResumed i = true) :
    (denseResult a options).stopNs.getD i (-1) ≠ -1 ∨
      (denseResult a options).missing.getD i false = true := by
  obtain ⟨l, hledger, hmirrors⟩ := dense_run_mirrors a options
  rw [hmirrors.denseResult_eq hledger]
  have hsize : i < (Array.replicate a.len (-1 : Int)).size := by simpa using hi
  have hstart : i ∈ (List.range a.len).filter a.isResumed :=
    List.mem_filter.mpr ⟨List.mem_range.mpr hi, hresumed⟩
  rw [← hledger.starts, ← hledger.perm.mem_iff, List.mem_append] at hstart
  have hkeys : ((((l.stopStartIndices ++ settledStops a.toEventArrays options l).zip
      (l.stopEventIndices ++ (settledStops a.toEventArrays options l).map fun _ =>
        a.len - 1)).map fun entry => (entry.1, a.timestamp entry.2)).map Prod.fst).Nodup := by
    rw [hledger.closes_append]
    simpa [Function.comp_def, ← hledger.closes_fst] using hledger.settled_nodup
  -- The end of a settled or closed start is the timestamp of an event.
  have hend : ∀ event, event < a.len →
      (i, event) ∈ (l.stopStartIndices ++ settledStops a.toEventArrays options l).zip
        (l.stopEventIndices ++ (settledStops a.toEventArrays options l).map fun _ =>
          a.len - 1) →
      (reconstructSparseOutput a.toEventArrays (settle a.toEventArrays l
        (settledStops a.toEventArrays options l)
        (settledMissing a.toEventArrays options l))).stopNs.getD i (-1) ≠ -1 := by
    intro event hevent hmem
    have hcell := writeAll_of_mem (-1) hkeys (List.mem_map_of_mem hmem) hsize
    exact fun heq => hsentinel event hevent (hcell.symm.trans heq)
  rcases hstart with hclosed | hopen
  · left
    rw [← hledger.closes_fst] at hclosed
    obtain ⟨entry, hentry, rfl⟩ := List.mem_map.mp hclosed
    refine hend entry.2 (hledger.closes_ok entry hentry).2.1 ?_
    rw [hledger.closes_append]
    exact List.mem_append_left _ hentry
  · cases haccept : acceptsEndOfStream options a.toEventArrays (a.len - 1) i with
    | true =>
        left
        refine hend (a.len - 1) (by omega) ?_
        rw [hledger.closes_append]
        exact List.mem_append_right _
          (List.mem_map.mpr ⟨i, List.mem_filter.mpr ⟨hopen, haccept⟩, rfl⟩)
    | false =>
        right
        have hmissing : (settledMissing a.toEventArrays options l).Nodup :=
          hledger.nodup.of_append_right.filter _
        refine writeAll_of_mem false (by simpa [Function.comp_def, settle] using hmissing) ?_
          (by simpa using hi)
        exact List.mem_map.mpr ⟨i, List.mem_filter.mpr ⟨hopen, by simp [haccept]⟩, rfl⟩

/-- If no timestamp is the value that marks a cell without an end, a sparse result that rebuilds
the dense one leaves no opener beyond the reach of a list cell. -/
theorem fits_of_rebuildsDense (hlen : a.SameLengths a.resumed) (hcodes : a.NonnegativeCodes)
    (hsentinel : ∀ i < a.len, a.timestamp i ≠ -1) (h : RebuildsDense a options) {i : Nat}
    (hi : i < a.len) (hresumed : a.isResumed i = true) : i < 2 ^ 31 := by
  obtain ⟨u, hsparse, hdense, -⟩ := h
  by_contra hwide
  have huntouched := reconstruct_untouched (a := a.toEventArrays) fun hmem =>
    hwide (matchSparse_below hlen hcodes hsparse i hmem)
  rw [matchAppUsageCore_eq hlen] at hdense
  rw [← Except.ok.inj hdense] at huntouched
  rcases denseResult_settles hsentinel hi hresumed with hstop | hmissing
  · exact hstop huntouched.1
  · simp [huntouched.2] at hmissing

/-- The sparse result rebuilds the dense one when the openers fit a list cell, and, unless some
timestamp is the sentinel, only then. -/
theorem sparse_rebuilds_dense (a : MatchArrays) (options : MatchOptions)
    (hlen : a.SameLengths a.resumed) (hcodes : a.NonnegativeCodes)
    (hsorted : a.SortedTimestamps) :
    ((∀ i < a.len, a.isResumed i = true → i < 2 ^ 31) → RebuildsDense a options) ∧
      ((∀ i < a.len, a.timestamp i ≠ -1) → RebuildsDense a options →
        ∀ i < a.len, a.isResumed i = true → i < 2 ^ 31) :=
  ⟨rebuildsDense_of_fits hlen hcodes hsorted, fun hsentinel h _ hi hresumed =>
    fits_of_rebuildsDense hlen hcodes hsentinel h hi hresumed⟩

end Results

/-! ## Concrete inputs -/

/-- Two apps in turn, the first one in the background. -/
def handoverRows : MatchArrays where
  appCodes := #[0, 1, 1, 0]
  timestampNs := #[0, 5, 9, 20]
  sameStop := #[false, false, true, true]
  otherStop := #[false, true, true, false]
  stopped := #[false, false, false, false]
  background := #[true, false, false, false]
  resumed := #[true, true, false, true]

/-- Reuse on, with a threshold that cuts off the first start. -/
def reuseOptions : MatchOptions where
  allowStopEventReuse := true
  useActivityStoppedAsFallback := false
  applyThresholdToFallback := false
  longDurationThresholdNs := 15

theorem sparse_rebuilds_dense_handover : RebuildsDense handoverRows reuseOptions := by
  have hcodes : ∀ i < handoverRows.len, 0 ≤ handoverRows.appCode i := by decide
  have htimes : ∀ j < handoverRows.len, ∀ i ≤ j,
      handoverRows.timestamp i ≤ handoverRows.timestamp j := by decide
  have hfit : ∀ i < 4, handoverRows.isResumed i = true → i < 2 ^ 31 := fun i hi _ => by omega
  exact (sparse_rebuilds_dense handoverRows reuseOptions (by decide) hcodes
    fun i j hij hj => htimes j hj i hij).1 hfit

/-- `openerAfter` as input of the dense and the sparse matcher. -/
def resumedAfter (n : Nat) : MatchArrays :=
  { openerAfter n with resumed := (openerAfter n).eligibleOpener }

theorem sparse_loses_wide_resume :
    ((resumedAfter 2147483648).SameLengths (resumedAfter 2147483648).resumed ∧
        (resumedAfter 2147483648).NonnegativeCodes ∧
        (resumedAfter 2147483648).SortedTimestamps) ∧
      ¬ RebuildsDense (resumedAfter 2147483648) reuseOptions := by
  generalize hn : 2147483648 = n
  have hlengths : (resumedAfter n).SameLengths (resumedAfter n).resumed := by
    have hshape := openerAfter_sameLengths n
    exact ⟨hshape.1.1, hshape.2, hshape.1.2.2⟩
  refine ⟨⟨hlengths, openerAfter_codes n, openerAfter_sorted n⟩, fun h => ?_⟩
  have hfit := fits_of_rebuildsDense hlengths (openerAfter_codes n)
    (fun i _ => by
      have hzero : (resumedAfter n).timestamp i = 0 := openerAfter_timestamp n i
      omega) h (i := n)
    (by
      have hlen : (resumedAfter n).len = n + 1 := openerAfter_len n
      omega) (openerAfter_isEligible n)
  omega

end Chronicle.Matcher
