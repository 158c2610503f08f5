import Chronicle.Pipeline.Descent

/-!
# Candidate rows and their classification

The rows that episodes are written onto have nothing blanked and, without an observed end, no stop.
The classification blanks durations without publishing them and leaves unended rows as they are.
-/

namespace Chronicle.Pipeline

open Chronicle.Library Chronicle.Library.Loop Chronicle.Library.Stages Chronicle.Matcher

/-- Every row of the table has the property. -/
abbrev Every (P : Row → Prop) (rows : List Row) : Prop := ∀ row ∈ rows, P row

/-! ## Candidates -/

section Materialization

variable {events : EventTable} {result : MatcherOutput} {rangeDigest : Nat → Nat → String}

/-- No duration rule has blanked or excluded the row. -/
def Row.Untouched (row : Row) : Prop :=
  row.minimumDurationBlankApplied = false ∧ row.maximumDurationAggregateEligible = true

/-- A candidate row: no rule has touched it yet, and an unended row has no stop. -/
def Row.Candidate (row : Row) : Prop :=
  row.Untouched ∧ row.Unpublished ∧
    (row.interactionType = endOfUsageMissing → row.stopTimestampNs = none)

theorem untouched_of_noTiming {row : Row} (h : row.toEpisodeTiming = {}) : row.Untouched := by
  constructor
  all_goals rw [h]

theorem candidate_of_noTiming {row : Row} (h : row.toEpisodeTiming = {}) : row.Candidate := by
  refine ⟨untouched_of_noTiming h, ⟨?_, ?_⟩, fun _ => ?_⟩
  all_goals rw [h]

theorem candidate_default : ({} : Row).Candidate := candidate_of_noTiming rfl

theorem candidate_rowAt {rows : List Row} (h : Every Row.Candidate rows) (index : Nat) :
    (rowAt rows index).Candidate := by
  rw [rowAt, List.getD_eq_getElem?_getD]
  cases hrow : rows[index]? with
  | none => exact candidate_default
  | some row => exact h row (List.mem_of_getElem? hrow)

theorem every_modify {P : Row → Prop} {rows : List Row} {f : Row → Row} {index : Nat}
    (h : Every P rows) (hf : ∀ row, rows[index]? = some row → P (f row)) :
    Every P (rows.modify index f) := by
  intro later hlater
  rcases mem_modify hlater with hlater | ⟨row, hrow, rfl⟩
  · exact h later hlater
  · exact hf row hrow

/-- The label of a row is unchanged by the loops over starts and stops. -/
def SameLabels (rows later : List Row) : Prop :=
  later.map Row.interactionType = rows.map Row.interactionType

theorem SameLabels.rowAt_eq {rows later : List Row} (h : SameLabels rows later) (index : Nat) :
    (rowAt later index).interactionType = (rowAt rows index).interactionType := by
  have hget := congrArg (·[index]?) h
  simp only [List.getElem?_map] at hget
  rw [rowAt, rowAt, List.getD_eq_getElem?_getD, List.getD_eq_getElem?_getD]
  cases hl : later[index]? <;> cases hr : rows[index]? <;> simp_all

/-- What the loop over the stops keeps. -/
structure MaterializationInvariant (events : EventTable) (m : Materialization) : Prop where
  rows : Every Row.Candidate m.rows
  fragments : Every Row.Candidate m.fragmentRows
  labels : SameLabels events.rows m.rows

theorem candidate_withStop {row : Row} (h : row.Candidate)
    (hopen : row.interactionType ≠ endOfUsageMissing) (stopSourceRows : SourceDataRows)
    (searches : List LineageSearchEvidence) (beginNs : Option Int) (stopNs : Int)
    (reason : Option EpisodeCloseReason) :
    (row.withStop stopSourceRows searches beginNs stopNs reason).Candidate :=
  ⟨h.1, h.2.1, fun hmissing => absurd hmissing hopen⟩

theorem invariant_writeStop {m : Materialization} (h : MaterializationInvariant events m)
    {episode : Nat × Nat}
    (hopen : (rowAt events.rows episode.2).interactionType ≠ endOfUsageMissing) :
    MaterializationInvariant events (writeStop result rangeDigest m episode) := by
  have hlabel : (rowAt m.rows episode.2).interactionType ≠ endOfUsageMissing := by
    rwa [h.labels.rowAt_eq]
  unfold writeStop
  dsimp only
  split
  · refine ⟨h.rows, fun row hrow => ?_, h.labels⟩
    rcases List.mem_append.mp hrow with hrow | hrow
    · exact h.fragments row hrow
    · rw [List.mem_singleton.mp hrow]
      exact candidate_withStop (candidate_rowAt h.rows episode.2) hlabel _ _ _ _ _
  · refine ⟨every_modify h.rows fun row hrow => ?_, h.fragments, ?_⟩
    · have hrowAt : rowAt m.rows episode.2 = row := by
        rw [rowAt, List.getD_eq_getElem?_getD, hrow]
        rfl
      rw [hrowAt] at hlabel
      exact candidate_withStop (h.rows row (List.mem_of_getElem? hrow)) hlabel _ _ _ _ _
    · refine (map_modify_eq (fun _ => ?_) _ _).trans h.labels
      rfl

theorem invariant_foldl_writeStop {episodes : List (Nat × Nat)} {m : Materialization}
    (h : MaterializationInvariant events m)
    (hopen : ∀ episode ∈ episodes,
      (rowAt events.rows episode.2).interactionType ≠ endOfUsageMissing) :
    MaterializationInvariant events (episodes.foldl (writeStop result rangeDigest) m) := by
  induction episodes generalizing m with
  | nil => exact h
  | cons episode episodes ih =>
      exact ih (invariant_writeStop h (hopen episode List.mem_cons_self))
        fun later hlater => hopen later (List.mem_cons_of_mem episode hlater)

theorem candidates_foldl_markStart {starts : List Nat} {rows : List Row}
    (h : Every Row.Candidate rows) : Every Row.Candidate (starts.foldl markStart rows) := by
  induction starts generalizing rows with
  | nil => exact h
  | cons index starts ih =>
      exact ih (every_modify h fun row hrow => h row (List.mem_of_getElem? hrow))

theorem sameLabels_foldl_markStart (starts : List Nat) (rows : List Row) :
    SameLabels rows (starts.foldl markStart rows) := by
  induction starts generalizing rows with
  | nil => rfl
  | cons index starts ih =>
      refine (ih (markStart rows index)).trans (map_modify_eq (fun _ => ?_) rows index)
      rfl

theorem candidates_foldl_markMissing {filteredPackages : List String}
    {episodes : List (Nat × Nat)} {rows : List Row} (h : Every Row.Candidate rows) :
    Every Row.Candidate
      (episodes.foldl (markMissing result filteredPackages rangeDigest) rows) := by
  induction episodes generalizing rows with
  | nil => exact h
  | cons episode episodes ih =>
      refine ih (every_modify h fun row hrow => ?_)
      exact ⟨(h row (List.mem_of_getElem? hrow)).1, ⟨rfl, rfl⟩, fun _ => rfl⟩

theorem mem_positioned {α : Type} {l : List α} {entry : Nat × α} (h : entry ∈ positioned l) :
    entry.2 ∈ l := by
  obtain ⟨swapped, hmem, rfl⟩ := List.mem_map.mp h
  exact List.fst_mem_of_mem_zipIdx hmem

/-- The rows that the matcher's episodes are written onto are candidates. -/
theorem candidates_materialize (searchDigest : List Row → Nat → Nat → String)
    (matching : Matching events) (filteredPackages : List String) :
    Every Row.Candidate (materializeCandidateEpisodes searchDigest events.rows matching.result
      filteredPackages) := by
  have hraw : Every Row.Candidate events.rows := fun row hrow =>
    candidate_of_noTiming (events.noTiming row hrow)
  have hstarted : MaterializationInvariant events
      ⟨matching.result.startIndices.foldl markStart events.rows, [], []⟩ :=
    ⟨candidates_foldl_markStart hraw, fun row hrow => absurd hrow List.not_mem_nil,
      sameLabels_foldl_markStart _ _⟩
  have hclosed : MaterializationInvariant events
      ((positioned matching.result.stopStartIndices).foldl
        (writeStop matching.result (searchDigest events.rows))
        ⟨matching.result.startIndices.foldl markStart events.rows, [], []⟩) :=
    invariant_foldl_writeStop hstarted
      fun episode hepisode => matching.startsOpen _ (mem_positioned hepisode)
  intro row hrow
  rcases List.mem_append.mp hrow with hrow | hrow
  · exact candidates_foldl_markMissing hclosed.rows row hrow
  · exact hclosed.fragments row hrow

/-- No rule has touched the copies of prose episodes either. -/
theorem untouched_schoedelRows {rows : List Row} (hrows : Every Row.Untouched rows)
    {episodes : List Screens.SchoedelEpisodeEvidence} {copies : List (Bool × Row)}
    (h : schoedelRows rows episodes = .ok copies) : ∀ copy ∈ copies, copy.2.Untouched := by
  induction episodes generalizing copies with
  | nil =>
      cases h
      exact fun copy hcopy => absurd hcopy List.not_mem_nil
  | cons episode episodes ih =>
      rw [schoedelRows] at h
      split at h
      case h_1 => cases h
      case h_2 row hrow =>
        have huntouched := hrows row (List.mem_reverse.mp (List.mem_of_find?_eq_some hrow))
        cases hrest : schoedelRows rows episodes with
        | error error => simp [hrest, Except.map] at h
        | ok rest =>
            simp only [hrest, Except.map, Except.ok.injEq] at h
            subst h
            intro copy hcopy
            split at hcopy
            all_goals
              rcases List.mem_cons.mp hcopy with rfl | hcopy
              · exact huntouched
              · exact ih hrest copy hcopy

end Materialization

/-! ## Classification -/

section Classification

variable {row later : Row}

theorem settled_of_not_blank (h : row.minimumDurationBlankApplied = false) : row.Settled :=
  fun happlied => absurd (h.symm.trans happlied) Bool.false_ne_true

theorem classifyMissing_kept (microUse : MicroUseClassificationPolicy) (row : Row) :
    Descends row (classifyMissing microUse row) := by
  unfold classifyMissing
  split
  · exact ⟨rfl, rfl, id, id⟩
  · exact .refl row

theorem settled_classifyBounded (filteredPackages : List String) (rules : DurationRules)
    (row : Row) (start stop : Int) : (classifyBounded filteredPackages rules row start stop).Settled := by
  unfold classifyBounded
  dsimp only
  split
  · cases rules.disposition with
    | chronicleBlankKeepRow => exact fun _ => ⟨rfl, rfl⟩
    | retainAndCredit => split <;> exact settled_of_not_blank rfl
    | retainButExclude => split <;> exact settled_of_not_blank rfl
    | dropRow => split <;> exact settled_of_not_blank rfl
  · split <;> exact settled_of_not_blank rfl

@[simp]
theorem apply_label (disposition : MinimumDurationDisposition) (row : Row) :
    (disposition.apply row).interactionType = row.interactionType := by
  cases disposition <;> rfl

/-- A classified episode has a label of its own. -/
theorem bounded_classifyBounded (filteredPackages : List String) (rules : DurationRules)
    (row : Row) (start stop : Int) :
    (classifyBounded filteredPackages rules row start stop).interactionType ≠ endOfUsageMissing := by
  have hlabel : (classifyBounded filteredPackages rules row start stop).interactionType =
      if row.appPackageName ∈ filteredPackages then filteredAppUsage else appUsage := by
    unfold classifyBounded
    dsimp only
    split
    · rw [apply_label]
      split <;> simp_all [Row.clearTiming, Row.publishDuration]
    · split <;> simp_all [Row.clearTiming, Row.publishDuration]
  rw [hlabel]
  split
  · simp [filteredAppUsage, endOfUsageMissing]
  · simp [appUsage, endOfUsageMissing]

/-- What the maximum-duration stage keeps of a row. -/
structure MaximumKept (row later : Row) : Prop where
  label : later.interactionType = row.interactionType
  minimumEligible :
    later.minimumDurationAggregateEligible = row.minimumDurationAggregateEligible
  settled : row.Settled → later.Settled

theorem MaximumKept.trans {last : Row} (h : MaximumKept row later) (h' : MaximumKept later last) :
    MaximumKept row last :=
  ⟨h'.label.trans h.label, h'.minimumEligible.trans h.minimumEligible, h'.settled ∘ h.settled⟩

theorem maximumKept_truncateRow (isFiltered : Bool) (rawDurationNs thresholdNs effectiveStop : Int) :
    MaximumKept row (truncateRow row isFiltered rawDurationNs thresholdNs effectiveStop).1 := by
  unfold truncateRow
  dsimp only
  split
  · exact ⟨rfl, rfl, id⟩
  split
  · exact ⟨rfl, rfl, id⟩
  · next hblank => exact ⟨rfl, rfl, fun _ => settled_of_not_blank (Bool.not_eq_true _ ▸ hblank)⟩

theorem maximumKept_applyMaximumDisposition {isFiltered : Bool}
    {disposition : MaximumDurationDisposition} {rawStart rawDurationNs thresholdNs : Int}
    {result : Row × Bool}
    (h : applyMaximumDisposition row isFiltered disposition rawStart rawDurationNs thresholdNs =
      .ok result) : MaximumKept row result.1 := by
  have hqualified (exceeds : Bool) : MaximumKept row (row.withMaximumQualification exceeds) :=
    ⟨rfl, rfl, id⟩
  unfold applyMaximumDisposition at h
  dsimp only at h
  split at h
  · cases h
    exact hqualified _
  cases disposition with
  | notApplicable => cases h; exact hqualified _
  | flagAndRetain => cases h; exact hqualified _
  | retainButExclude => cases h; exact ⟨rfl, rfl, id⟩
  | truncateToThreshold =>
      obtain ⟨effectiveStop, -, h⟩ := bind_eq_ok.mp h
      cases h
      exact (hqualified _).trans (maximumKept_truncateRow isFiltered _ _ effectiveStop)
  | dropRow => cases h; exact ⟨rfl, rfl, id⟩

theorem maximumKept_applyMaximumDurationToRow {isFiltered : Bool} {stage : MaximumDurationRowStage}
    {result : Row × Bool} (h : applyMaximumDurationToRow row isFiltered stage = .ok result) :
    MaximumKept row result.1 := by
  unfold applyMaximumDurationToRow at h
  split at h
  · next rawStart rawStop _ _ =>
      obtain ⟨span, -, h⟩ := bind_eq_ok.mp h
      split at h
      · cases h
        exact ⟨rfl, rfl, id⟩
      · exact maximumKept_applyMaximumDisposition h
  · cases h
    exact ⟨rfl, rfl, id⟩

/-- A classified row publishes no duration that its minimum blanked. -/
theorem settled_classifyRow {filteredPackages : List String} {rules : DurationRules}
    {selected : List Nat} {index : Nat} (hrow : row.Settled)
    (h : classifyRow filteredPackages rules selected index row = .ok later) : later.Settled := by
  unfold classifyRow at h
  dsimp only at h
  split at h
  · split at h
    · obtain ⟨result, hresult, rfl⟩ := map_eq_ok.mp h
      exact (maximumKept_applyMaximumDurationToRow hresult).settled (settled_classifyBounded _ _ _ _ _)
    · cases h
      exact settled_classifyBounded _ _ _ _ _
  · cases h
    exact (classifyMissing_kept rules.microUse row).settled hrow

/-- A classified row that is still labelled as unended has no stop and no duration. -/
theorem unended_classifyRow {filteredPackages : List String} {rules : DurationRules}
    {selected : List Nat} {index : Nat} (hrow : row.Unended)
    (h : classifyRow filteredPackages rules selected index row = .ok later) : later.Unended := by
  unfold classifyRow at h
  dsimp only at h
  split at h
  · intro hmissing
    split at h
    · obtain ⟨result, hresult, rfl⟩ := map_eq_ok.mp h
      rw [(maximumKept_applyMaximumDurationToRow hresult).label] at hmissing
      exact absurd hmissing (bounded_classifyBounded _ _ _ _ _)
    · cases h
      exact absurd hmissing (bounded_classifyBounded _ _ _ _ _)
  · cases h
    exact (classifyMissing_kept rules.microUse row).unended hrow

/-- What every row keeps through its classification, the classified table keeps. -/
theorem every_classifyEpisodeDurations {P : Row → Prop} {filteredPackages : List String}
    {rules : DurationRules} {selected : List Nat} {rows classified : List Row}
    (hP : ∀ index row later, P row →
      classifyRow filteredPackages rules selected index row = .ok later → P later)
    (hrows : Every P rows)
    (h : classifyEpisodeDurations rows filteredPackages rules selected = .ok classified) :
    Every P classified := by
  intro later hlater
  obtain ⟨entry, hentry, hok⟩ := mem_of_mapM_ok h hlater
  exact hP entry.1 entry.2 later (hrows _ (mem_positioned (List.mem_of_mem_filter hentry))) hok

end Classification

end Chronicle.Pipeline
