import Mathlib.Data.List.Chain
import Chronicle.Screens.Construction

/-!
# The validator on native outputs

An output of the canonical adapter always carries the receipts that the validator expects. What is
left to check are the order of its intervals, their ids, their boundaries, and the order of its
issues.
-/

namespace Chronicle.Screens

open Chronicle.Library.StableSort Chronicle.Library.Stages

/-! ## Applicability -/

/-- A sorted list without repetitions ascends. -/
theorem pairwise_lt_sortByKey {α κ : Type} [LinearOrder κ] {key : α → κ} {l : List α}
    (hnodup : (l.map key).Nodup) : (sortByKey key l).Pairwise fun a b => key a < key b := by
  have hdistinct : (sortByKey key l).Pairwise fun a b => key a ≠ key b :=
    List.pairwise_map.mp (((perm_sortByKey key l).map key).nodup_iff.mpr hnodup)
  exact ((pairwise_sortByKey key l).and hdistinct).imp fun h => lt_of_le_of_ne h.1 h.2

theorem B05ApplicabilityInput.pairwise_participantIds (input : B05ApplicabilityInput) :
    input.participantIds.Pairwise (· < ·) := by
  rw [B05ApplicabilityInput.participantIds]
  split
  · exact List.pairwise_singleton _ _
  · refine pairwise_lt_sortByKey ?_
    simpa using List.nodup_dedup _

variable {sha256 : List UInt8 → List UInt8}

/-- The receipt of the native rule passes all checks of the applicability. -/
theorem validateApplicability_chronicleReceipt (input : B05ApplicabilityInput) :
    validateApplicability sha256 (input.chronicleReceipt.sealed sha256) input.rawInputSha256
      .chronicleScreenInteractiveV1 = .ok () := by
  have hparticipants : (input.chronicleReceipt.sealed sha256).participantDecisions =
      input.participantIds.map fun participantId => ⟨participantId, .none, [], 0, []⟩ := rfl
  unfold validateApplicability
  simp only [check_and, require_eq_ok, hparticipants]
  refine ⟨rfl, ⟨rfl, rfl⟩, ⟨rfl, rfl, rfl⟩, ⟨rfl, rfl, rfl, rfl⟩, ⟨rfl, ?_⟩, ?_, ?_, rfl, ?_, ?_,
    ?_⟩
  · have hnone : (input.participantIds.map fun participantId =>
        (⟨participantId, .none, [], 0, []⟩ : B05ParticipantDecision)).any
          (0 < ·.decisiveEqualTimestampGroupCount) = false := by
      simp
    rw [expectedRequiredCapabilityIds, hnone]
    rfl
  · have hrelation : (input.chronicleReceipt.sealed sha256).relation =
        if input.selectionWasExplicit then .baselineEquivalent else .baselineNative := rfl
    rw [hrelation]
    cases input.selectionWasExplicit <;> rfl
  · rfl
  · refine (List.isChain_map _).mpr ?_
    exact input.pairwise_participantIds.isChain
  · rw [forM_eq_ok]
    intro participant hparticipant
    obtain ⟨participantId, _, rfl⟩ := List.mem_map.mp hparticipant
    rfl
  · exact ⟨.nil, .nil⟩

theorem resolveB05Applicability_native {input : B05ApplicabilityInput}
    (hwhole : input.fragmentedParticipants = []) :
    resolveB05Applicability sha256 .chronicleScreenInteractiveV1 input =
      .ok (input.chronicleReceipt.sealed sha256) := by
  rw [resolveB05Applicability, if_neg (not_not.mpr hwhole), if_pos rfl]

theorem resolveB05Applicability_fragmented {input : B05ApplicabilityInput}
    (hsplit : input.fragmentedParticipants ≠ []) (strategy : Strategy) :
    resolveB05Applicability sha256 strategy input =
      .ok ((input.fragmentedReceipt strategy).sealed sha256) := by
  rw [resolveB05Applicability, if_pos hsplit]

/-! ## Intervals -/

theorem validateIntervals_eq_ok {strategy : Strategy} {rowCount : Nat}
    {intervals : List ScreenIntervalEvidence} {seen : List String} :
    validateIntervals sha256 strategy rowCount intervals seen = .ok () ↔
      (intervals.map (·.screenIntervalId)).Nodup ∧
        ∀ interval ∈ intervals, interval.screenIntervalId ∉ seen ∧
          interval.strategyId = strategy ∧ interval.boundaryShaped rowCount = true ∧
          interval.rebuilt sha256 = interval := by
  induction intervals generalizing seen with
  | nil => simp [validateIntervals]
  | cons interval rest ih =>
      have hfresh : ∀ other : ScreenIntervalEvidence,
          other.screenIntervalId ∉ interval.screenIntervalId :: seen ↔
            other.screenIntervalId ≠ interval.screenIntervalId ∧ other.screenIntervalId ∉ seen :=
        fun other => by rw [List.mem_cons, not_or]
      simp only [validateIntervals, check_and, require_eq_ok, ih, List.map_cons, List.nodup_cons,
        List.forall_mem_cons, hfresh, List.mem_map]
      constructor
      · rintro ⟨hfresh, hstrategy, hshaped, hrebuilt, hnodup, hrest⟩
        refine ⟨⟨?_, hnodup⟩, ⟨hfresh, hstrategy, hshaped, hrebuilt⟩, fun other hother => ?_⟩
        · rintro ⟨other, hother, heq⟩
          exact (hrest other hother).1.1 heq
        · exact ⟨(hrest other hother).1.2, (hrest other hother).2⟩
      · rintro ⟨⟨hfirst, hnodup⟩, ⟨hfresh, hstrategy, hshaped, hrebuilt⟩, hrest⟩
        refine ⟨hfresh, hstrategy, hshaped, hrebuilt, hnodup, fun other hother => ⟨⟨?_, ?_⟩, ?_⟩⟩
        · exact fun heq => hfirst ⟨other, hother, heq⟩
        · exact (hrest other hother).1
        · exact (hrest other hother).2

theorem sortDedup_sortDedup (rows : List Nat) : sortDedup (sortDedup rows) = sortDedup rows := by
  have hsorted : (sortDedup rows).Pairwise (· ≤ ·) :=
    (List.pairwise_insertionSort (· ≤ ·) rows).sublist (List.dedup_sublist _)
  have hnodup : (sortDedup rows).Nodup := List.nodup_dedup _
  conv_lhs => rw [sortDedup]
  rw [List.Pairwise.insertionSort_eq hsorted, hnodup.dedup]

section Parts

variable (sha256 : List UInt8 → List UInt8) (input : ChronicleScreenIntervalInput)

@[simp]
theorem participantId_interval : (input.interval sha256).participantId = input.participantId := rfl

@[simp]
theorem startNs_interval : (input.interval sha256).startNs = input.startNs := rfl

@[simp]
theorem stopNs_interval : (input.interval sha256).stopNs = input.stopNs := rfl

@[simp]
theorem startBoundarySourceRow_interval :
    (input.interval sha256).startBoundarySourceRow = input.startBoundarySourceRow := rfl

@[simp]
theorem stopBoundarySourceRow_interval :
    (input.interval sha256).stopBoundarySourceRow = input.stopBoundarySourceRow := rfl

@[simp]
theorem startSourceRows_interval :
    (input.interval sha256).startSourceRows = sortDedup input.startSourceRows := rfl

@[simp]
theorem stopSourceRows_interval :
    (input.interval sha256).stopSourceRows = sortDedup input.stopSourceRows := rfl

@[simp]
theorem closeReason_interval : (input.interval sha256).closeReason = input.closeReason := rfl

@[simp]
theorem rightCensored_interval :
    (input.interval sha256).rightCensored = input.stopNs.isNone := rfl

end Parts

@[simp]
theorem sortDedup_eq_nil {rows : List Nat} : sortDedup rows = [] ↔ rows = [] := by
  rw [List.eq_nil_iff_forall_not_mem, List.eq_nil_iff_forall_not_mem]
  simp only [mem_sortDedup]

theorem beq_bool_iff (a b : Bool) : (a == b) = true ↔ (a = true ↔ b = true) := by
  cases a <;> cases b <;> decide

/-- The boundaries that an interval input must have to be accepted. -/
theorem boundaryShaped_interval {input : ChronicleScreenIntervalInput} {rowCount : Nat} :
    (input.interval sha256).boundaryShaped rowCount = true ↔
      input.startBoundarySourceRow ∈ input.startSourceRows ∧
        (∀ row ∈ input.startSourceRows ++ input.stopSourceRows, 0 < row ∧ row ≤ rowCount) ∧
        (∀ row ∈ input.stopBoundarySourceRow, row ∈ input.stopSourceRows) ∧
        (input.stopNs.isSome = true ↔ input.stopBoundarySourceRow.isSome = true) ∧
        (input.stopNs = none ↔ input.stopSourceRows = []) ∧
        (∀ stop ∈ input.stopNs, input.startNs ≤ stop) ∧
        (input.stopNs = none ↔ input.closeReason = .rightCensoredObservationWindow) := by
  simp only [ScreenIntervalEvidence.boundaryShaped, Bool.and_eq_true, beq_bool_iff]
  simp only [decide_eq_true_eq, List.all_eq_true, Bool.and_eq_true, Bool.not_eq_true',
    List.isEmpty_eq_false_iff, List.contains_iff_mem, Option.all_eq_true, beq_iff_eq,
    Option.isNone_iff_eq_none, List.isEmpty_iff, ne_eq]
  simp only [startNs_interval, stopNs_interval, startBoundarySourceRow_interval,
    stopBoundarySourceRow_interval, startSourceRows_interval, stopSourceRows_interval,
    closeReason_interval, List.mem_append, mem_sortDedup, sortDedup_eq_nil, Option.mem_def]
  constructor
  · rintro ⟨⟨⟨⟨⟨⟨⟨⟨⟨_, _⟩, hin⟩, _⟩, hstart⟩, hboth⟩, hempty⟩, hstop⟩, hle⟩, hreason⟩
    exact ⟨hstart, hin, hstop, hboth, hempty, hle, hreason⟩
  · rintro ⟨hstart, hin, hstop, hboth, hempty, hle, hreason⟩
    exact ⟨⟨⟨⟨⟨⟨⟨⟨⟨List.ne_nil_of_mem hstart, hin _ (.inl hstart)⟩, hin⟩,
      fun row hrow => hin row (.inr (hstop row hrow))⟩, hstart⟩, hboth⟩, hempty⟩, hstop⟩, hle⟩,
      hreason⟩

theorem isEmpty_interval_id (input : ChronicleScreenIntervalInput) :
    (input.interval sha256).screenIntervalId.isEmpty = false := by
  have hid : (input.interval sha256).screenIntervalId ≠ "" := by
    intro hempty
    have hlist := congrArg String.toList hempty
    unfold ChronicleScreenIntervalInput.interval makeScreenIntervalFromParts at hlist
    simp at hlist
  simpa using hid

/-- An interval with proper boundaries can be depended on. -/
theorem misshapen_interval {input : ChronicleScreenIntervalInput} {rowCount : Nat}
    (h : (input.interval sha256).boundaryShaped rowCount = true) :
    (input.interval sha256).misshapen = false := by
  obtain ⟨_, _, _, hboth, _, hle, _⟩ := boundaryShaped_interval.mp h
  have hstop : input.stopNs.any (fun stop => decide (stop < input.startNs)) = false := by
    rw [Option.any_eq_false]
    intro stop hstop
    simpa using hle stop hstop
  have hsome : (input.stopNs.isSome != input.stopBoundarySourceRow.isSome) = false := by
    rw [bne_eq_false_iff_eq, Bool.eq_iff_iff]
    exact hboth
  rw [ScreenIntervalEvidence.misshapen, isEmpty_interval_id, rightCensored_interval]
  simp only [stopNs_interval, startNs_interval, stopBoundarySourceRow_interval, hsome,
    bne_self_eq_false, Bool.or_false]
  exact hstop

theorem forall_mem_zip_tail {α : Type} {R : α → α → Prop} {l : List α} :
    (∀ pair ∈ l.zip l.tail, R pair.1 pair.2) ↔ l.IsChain R := by
  induction l with
  | nil => simp
  | cons first rest ih =>
      cases rest with
      | nil => simp
      | cons second rest =>
          rw [List.isChain_cons_cons, ← ih, List.tail_cons, List.zip_cons_cons,
            List.forall_mem_cons]
          rfl

theorem invalidScreenDependency_eq_none {intervals : List ScreenIntervalEvidence} :
    invalidScreenDependency intervals = none ↔
      (∀ interval ∈ intervals, interval.misshapen = false) ∧
        intervals.IsChain fun a b => a.overlaps b = false := by
  rw [invalidScreenDependency, ← forall_mem_zip_tail]
  cases hfind : intervals.find? (·.misshapen) with
  | some interval =>
      have hbad : interval.misshapen = true := List.find?_some hfind
      constructor
      · intro h
        cases h
      · intro h
        have hgood := h.1 interval (List.mem_of_find?_eq_some hfind)
        rw [hbad] at hgood
        cases hgood
  | none =>
      have hgood : ∀ interval ∈ intervals, interval.misshapen = false := by
        simpa using List.find?_eq_none.mp hfind
      simp only [List.findSome?_eq_none_iff, ite_eq_right_iff, reduceCtorEq, imp_false,
        Bool.not_eq_true]
      exact ⟨fun h => ⟨hgood, h⟩, And.right⟩

/-- An interval of the adapter is made of its own parts. -/
theorem rebuilt_interval (input : ChronicleScreenIntervalInput) :
    (input.interval sha256).rebuilt sha256 = input.interval sha256 := by
  unfold ScreenIntervalEvidence.rebuilt ChronicleScreenIntervalInput.interval
    makeScreenIntervalFromParts
  simp only [sortDedup_sortDedup]

/-! ## The whole output -/

/-- What is left to check of a native output with these intervals and issues. -/
structure NativeOutputValid (rowCount : Nat) (intervals : List ScreenIntervalEvidence)
    (issues : List ScreenConstructionIssue) : Prop where
  ascending : intervals.Pairwise fun a b => a.key < b.key
  ids : (intervals.map (·.screenIntervalId)).Nodup
  shaped : ∀ interval ∈ intervals, interval.boundaryShaped rowCount = true
  independent : invalidScreenDependency intervals = none
  issues : issues.Pairwise fun a b => a.key < b.key

theorem sortByKey_and_pairwise {α κ : Type} [LinearOrder κ] {key : α → κ} {l : List α} :
    (sortByKey key l = l ∧ l.Pairwise fun a b => key a < key b) ↔
      l.Pairwise fun a b => key a < key b :=
  ⟨And.right, fun h => ⟨sortByKey_eq_self (h.imp le_of_lt), h⟩⟩

theorem validateScreenConstructionOutput_native {input : B05ApplicabilityInput}
    {inputs : List ChronicleScreenIntervalInput} {intervals : List ScreenIntervalEvidence}
    {issues : List ScreenConstructionIssue} {rowCount : Nat}
    (hintervals : intervals.Perm (inputs.map (·.interval sha256))) :
    validateScreenConstructionOutput sha256
        (chronicleOutput sha256 (input.chronicleReceipt.sealed sha256) rowCount intervals issues)
        input.rawInputSha256 .chronicleScreenInteractiveV1 rowCount = .ok () ↔
      NativeOutputValid rowCount intervals issues := by
  have : IsTrans ScreenIntervalEvidence fun a b => a.key < b.key := ⟨fun _ _ _ => lt_trans⟩
  have : IsTrans ScreenConstructionIssue fun a b => a.key < b.key := ⟨fun _ _ _ => lt_trans⟩
  have hmade : ∀ interval ∈ intervals, ∃ made : ChronicleScreenIntervalInput,
      interval = made.interval sha256 := by
    intro interval hinterval
    obtain ⟨made, _, hmade⟩ := List.mem_map.mp (hintervals.mem_iff.mp hinterval)
    exact ⟨made, hmade.symm⟩
  have hstrategy : ∀ interval ∈ intervals,
      interval.strategyId = .chronicleScreenInteractiveV1 := by
    intro interval hinterval
    obtain ⟨made, rfl⟩ := hmade interval hinterval
    rfl
  have hrebuilt : ∀ interval ∈ intervals, interval.rebuilt sha256 = interval := by
    intro interval hinterval
    obtain ⟨made, rfl⟩ := hmade interval hinterval
    exact rebuilt_interval made
  have hsessions : intervals.countP (·.kind = .session) = intervals.length := by
    refine List.countP_eq_length.mpr fun interval hinterval => ?_
    obtain ⟨made, rfl⟩ := hmade interval hinterval
    rfl
  unfold validateScreenConstructionOutput
  simp only [check_and, require_eq_ok]
  simp only [chronicleOutput, check_and, require_eq_ok, validateApplicability_chronicleReceipt,
    validateIntervals_eq_ok, validateConstructionReceipt, sortByKey_and_pairwise,
    List.isChain_iff_pairwise, hsessions, List.not_mem_nil, not_false_eq_true, true_and,
    Nat.sub_self, and_true, and_self, Strategy.sourceMetadata]
  constructor
  · rintro ⟨hascending, ⟨hids, hshaped⟩, hindependent, hissues⟩
    exact ⟨hascending, hids, fun interval hinterval => (hshaped interval hinterval).2.1,
      hindependent, hissues⟩
  · rintro ⟨hascending, hids, hshaped, hindependent, hissues⟩
    exact ⟨hascending, ⟨hids, fun interval hinterval => ⟨hstrategy interval hinterval,
      hshaped interval hinterval, hrebuilt interval hinterval⟩⟩, hindependent, hissues⟩

end Chronicle.Screens
