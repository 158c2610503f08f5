import Chronicle.Library.Selection
import Chronicle.Library.StableSort
import Chronicle.Polled.Timeline

/-!
# Isolation of participants in the polled emulation

All participants share one sorted timeline and one open run. The runs of one participant are those
of its own rows exactly when no sample of another participant stands between two neighbouring
samples that its own rows would join.
-/

namespace Chronicle.Polled

open Chronicle.Library.Machine Chronicle.Library.LinkedRuns Chronicle.Library.StableSort
  Chronicle.Library.Selection

section Timeline

variable {intervalNs : Int} {appRows : List Row}

/-- Samples are ordered by instant, then by row. -/
def Before (a b : PolledSample) : Prop :=
  a.instantNs < b.instantNs ∨ (a.instantNs = b.instantNs ∧ a.rowIndex < b.rowIndex)

theorem before_irrefl (a : PolledSample) : ¬ Before a a := by
  unfold Before
  omega

theorem before_trans (a b c : PolledSample) (hab : Before a b) (hbc : Before b c) :
    Before a c := by
  unfold Before at *
  omega

/-- A poller meets the row of the sample at the instant of the sample. -/
def Sampled (intervalNs : Int) (appRows : List Row) (sample : PolledSample) : Prop :=
  0 < intervalNs ∧ ∃ row, appRows[sample.rowIndex]? = some row ∧
    Polls intervalNs row sample.instantNs

/-- The timeline holds what a poller meets. -/
theorem mem_timeline {sample : PolledSample} :
    sample ∈ samplePolledTimeline intervalNs appRows ↔ Sampled intervalNs appRows sample := by
  unfold samplePolledTimeline Sampled
  split
  · next hneg =>
      simp only [List.not_mem_nil, false_iff]
      omega
  · next hpos =>
      have hpos' : 0 < intervalNs := by omega
      rw [List.mem_mergeSort, List.mem_flatMap]
      constructor
      · rintro ⟨⟨row, index⟩, hentry, hmem⟩
        obtain ⟨instant, hinstant, rfl⟩ := List.mem_map.mp hmem
        exact ⟨hpos', row, List.mk_mem_zipIdx_iff_getElem?.mp hentry,
          (mem_rowInstants hpos').mp hinstant⟩
      · rintro ⟨-, row, hrow, hpolls⟩
        exact ⟨(row, sample.rowIndex), List.mk_mem_zipIdx_iff_getElem?.mpr hrow,
          List.mem_map.mpr ⟨sample.instantNs, (mem_rowInstants hpos').mpr hpolls, rfl⟩⟩

/-- The samples are made row by row, with increasing instants in a row. -/
theorem samples_by_row (intervalNs : Int) (appRows : List Row) (hpos : 0 < intervalNs) :
    (appRows.zipIdx.flatMap (rowSamples intervalNs)).Pairwise fun a b =>
      a.rowIndex < b.rowIndex ∨ (a.rowIndex = b.rowIndex ∧ a.instantNs < b.instantNs) := by
  rw [List.pairwise_flatMap]
  constructor
  · intro entry _
    rw [rowSamples, List.pairwise_map]
    exact (rowInstants_increasing hpos entry.1).imp fun hlt => .inr ⟨rfl, hlt⟩
  · have hindex : appRows.zipIdx.Pairwise fun a b => a.2 < b.2 := by
      rw [← List.pairwise_map, List.zipIdx_map_snd]
      exact List.pairwise_lt_range'
    refine hindex.imp fun {entry other} hlt a ha b hb => ?_
    obtain ⟨instant, -, rfl⟩ := List.mem_map.mp ha
    obtain ⟨instant', -, rfl⟩ := List.mem_map.mp hb
    exact .inl hlt

/-- The timeline is strictly ordered. -/
theorem timeline_ordered : (samplePolledTimeline intervalNs appRows).Pairwise Before := by
  unfold samplePolledTimeline
  split
  · exact .nil
  · next hpos =>
      have hrows := samples_by_row intervalNs appRows (by omega)
      have hstable := pairwise_mergeSort_stable
        (fun a b : PolledSample => decide (a.instantNs ≤ b.instantNs))
        (fun a b c hab hbc => by simp at *; omega) (fun a b => by simp; omega) hrows
      refine hstable.imp fun {a b} h => ?_
      simp only [decide_eq_true_eq] at h
      unfold Before
      omega

end Timeline

section Runs

variable (appRows : List Row) (method : PolledEmulationMethod) (intervalNs gapNs : Int)

/-- Whether a sample joins the run of the sample before it. -/
def linked (a b : PolledSample) : Bool :=
  identity appRows a.rowIndex == identity appRows b.rowIndex &&
    decide (saturate64 (b.instantNs - a.instantNs) < breakAtNs method intervalNs gapNs)

/-- A run without the table's forced-terminal flag. -/
def unforced (run : PolledRun) : PolledRun := { run with forcedTerminal := false }

/-- Apart from the flag, the runs are the summaries of the runs of linked samples. -/
theorem groupPolledRuns_eq (samples : List PolledSample) :
    (groupPolledRuns appRows method intervalNs gapNs samples).map unforced =
      ((linkedRuns (linked appRows method intervalNs gapNs) samples).filterMap
        (summary openRun extendRun)).map unforced := by
  have hcollect := foldl_collectStep openRun extendRun
    (joinsRun appRows method intervalNs gapNs) (linked appRows method intervalNs gapNs)
    (fun run sample => identity appRows run.rowIndex = identity appRows sample.rowIndex ∧
      run.lastInstantNs = sample.instantNs)
    (fun sample => ⟨rfl, rfl⟩)
    (fun run a b hends hlink => by
      rw [linked, Bool.and_eq_true, beq_iff_eq] at hlink
      exact ⟨hends.1.trans hlink.1, rfl⟩)
    (fun run a b hends => by rw [joinsRun, linked, hends.1, hends.2]) samples
  dsimp only at hcollect
  rw [← hcollect]
  unfold groupPolledRuns
  dsimp only
  cases (samples.foldl (collectStep openRun extendRun
    (joinsRun appRows method intervalNs gapNs)) ([], none)).2 with
  | none => simp
  | some finished => simp [unforced]

end Runs

/-! ## One participant -/

section Participant

variable (appRows : List Row) (method : PolledEmulationMethod) (intervalNs gapNs : Int)
variable (participant : String)

/-- The rows of the participant. -/
def rowsOf : List Row := appRows.filter fun row => row.participantId == participant

/-- Whether the row belongs to the participant. -/
def owns (index : Nat) : Bool :=
  (appRows[index]?).any fun row => row.participantId == participant

/-- A local row index mapped back through the participant's ascending index list. -/
def globalIndex (index : Nat) : Nat :=
  placeOf (fun row : Row => row.participantId == participant) appRows index

/-- A sample of the participant's own rows, mapped back to the table. -/
def globalSample (sample : PolledSample) : PolledSample :=
  { sample with rowIndex := globalIndex appRows participant sample.rowIndex }

/-- A run of the participant's own rows, mapped back to the table. -/
def globalRun (run : PolledRun) : PolledRun :=
  { run with rowIndex := globalIndex appRows participant run.rowIndex }

/-- The table's runs of the participant are the runs of its own rows. -/
def Isolated : Prop :=
  ((polledRuns appRows method intervalNs gapNs).filter fun run =>
      owns appRows participant run.rowIndex).map unforced =
    ((polledRuns (rowsOf appRows participant) method intervalNs gapNs).map
      (globalRun appRows participant)).map unforced

/-- A sample of another participant stands between two neighbouring samples of this one that show
the same app and are closer than a run's break. -/
structure Interruption (x between next : PolledSample) : Prop where
  sampled : Sampled intervalNs appRows x ∧ Sampled intervalNs appRows between ∧
    Sampled intervalNs appRows next
  ordered : Before x between ∧ Before between next
  owners : owns appRows participant x.rowIndex = true ∧
    owns appRows participant between.rowIndex = false ∧
    owns appRows participant next.rowIndex = true
  sameApp : identity appRows x.rowIndex = identity appRows next.rowIndex
  close : saturate64 (next.instantNs - x.instantNs) < breakAtNs method intervalNs gapNs
  neighbours : ∀ sample, Sampled intervalNs appRows sample →
    owns appRows participant sample.rowIndex = true →
      ¬ (Before x sample ∧ Before sample next)

variable {appRows method intervalNs gapNs participant}

/-- The participant's part of the timeline is the timeline of its own rows. -/
theorem timeline_filter :
    (samplePolledTimeline intervalNs appRows).filter
        (fun sample => owns appRows participant sample.rowIndex) =
      (samplePolledTimeline intervalNs (rowsOf appRows participant)).map
        (globalSample appRows participant) := by
  unfold samplePolledTimeline
  split
  · rfl
  · have hmap : ((((rowsOf appRows participant).zipIdx.flatMap
          (rowSamples intervalNs)).mergeSort fun a b =>
            decide (a.instantNs ≤ b.instantNs)).map (globalSample appRows participant)) =
        (((rowsOf appRows participant).zipIdx.flatMap (rowSamples intervalNs)).map
          (globalSample appRows participant)).mergeSort fun a b =>
            decide (a.instantNs ≤ b.instantNs) := List.map_mergeSort fun _ _ _ _ => rfl
    rw [filter_mergeSort _ (fun a b c hab hbc => by simp at *; omega)
      (fun a b => by simp; omega), hmap]
    congr 1
    have hplaces : (rowsOf appRows participant).zipIdx.map (fun entry =>
          (entry.1, globalIndex appRows participant entry.2)) =
        appRows.zipIdx.filter fun entry => entry.1.participantId == participant := zipIdx_filter
    rw [filter_flatMap_eq (p := fun entry : Row × Nat => entry.1.participantId == participant),
      ← hplaces, List.flatMap_map, List.map_flatMap]
    · simp [rowSamples, globalSample, Function.comp_def]
    · intro entry hentry sample hsample
      have hrow := List.mk_mem_zipIdx_iff_getElem?.mp hentry
      obtain ⟨instant, -, rfl⟩ := List.mem_map.mp hsample
      simp [owns, hrow]

/-- Owners are read off the rows, so linked samples have one owner. -/
theorem owns_of_linked (appRows : List Row) (method : PolledEmulationMethod)
    (intervalNs gapNs : Int) (participant : String) (a b : PolledSample)
    (h : linked appRows method intervalNs gapNs a b = true) :
    owns appRows participant a.rowIndex = owns appRows participant b.rowIndex := by
  rw [linked, Bool.and_eq_true, beq_iff_eq] at h
  have hidentity := h.1
  unfold identity at hidentity
  unfold owns
  cases ha : appRows[a.rowIndex]? <;> cases hb : appRows[b.rowIndex]? <;> simp_all

/-- Samples of the participant's own rows are linked alone as they are in the table. -/
theorem linked_rowsOf {a b : PolledSample}
    (ha : a ∈ samplePolledTimeline intervalNs (rowsOf appRows participant))
    (hb : b ∈ samplePolledTimeline intervalNs (rowsOf appRows participant)) :
    linked appRows method intervalNs gapNs (globalSample appRows participant a)
        (globalSample appRows participant b) =
      linked (rowsOf appRows participant) method intervalNs gapNs a b := by
  have hidentity : ∀ sample ∈ samplePolledTimeline intervalNs (rowsOf appRows participant),
      identity appRows (globalIndex appRows participant sample.rowIndex) =
        identity (rowsOf appRows participant) sample.rowIndex := by
    intro sample hsample
    obtain ⟨-, row, hrow, -⟩ := mem_timeline.mp hsample
    have hplace := getElem_placeOf (p := fun row : Row => row.participantId == participant)
      (List.getElem?_eq_some_iff.mp hrow).1
    unfold identity
    exact congrArg _ hplace
  unfold linked globalSample
  dsimp only
  rw [hidentity a ha, hidentity b hb]

/-- The run of a sample keeps the sample's row. -/
theorem rowIndex_foldl_extendRun (samples : List PolledSample) (run : PolledRun) :
    (samples.foldl extendRun run).rowIndex = run.rowIndex := by
  induction samples generalizing run with
  | nil => rfl
  | cons sample rest ih => exact ih _

/-- Selecting the participant's runs is selecting the groups of its samples. -/
theorem filter_summaries (runs : List (List PolledSample)) :
    (runs.filterMap (summary openRun extendRun)).filter
        (fun run => owns appRows participant run.rowIndex) =
      (ownRuns (fun sample => owns appRows participant sample.rowIndex) runs).filterMap
        (summary openRun extendRun) := by
  induction runs with
  | nil => rfl
  | cons run later ih =>
      cases run with
      | nil =>
          rw [List.filterMap_cons_none rfl]
          simpa [ownRuns] using ih
      | cons sample rest =>
          have hrow := rowIndex_foldl_extendRun rest (openRun sample)
          cases hown : owns appRows participant sample.rowIndex <;>
            simp_all [summary, ownRuns, openRun]

/-- Mapping the samples of a run back maps the run back. -/
theorem summary_globalSample (samples : List PolledSample) :
    summary openRun extendRun (samples.map (globalSample appRows participant)) =
      (summary openRun extendRun samples).map (globalRun appRows participant) := by
  cases samples with
  | nil => rfl
  | cons sample rest =>
      have hfold : ∀ run : PolledRun,
          (rest.map (globalSample appRows participant)).foldl extendRun
              (globalRun appRows participant run) =
            globalRun appRows participant (rest.foldl extendRun run) := by
        induction rest with
        | nil => exact fun _ => rfl
        | cons next rest ih => exact fun run => ih (extendRun run next)
      exact congrArg some (hfold (openRun sample))

/-- The two sides of isolation, as summaries of groups of samples. -/
theorem isolated_iff_groups : Isolated appRows method intervalNs gapNs participant ↔
    ((ownRuns (fun sample => owns appRows participant sample.rowIndex)
        (linkedRuns (linked appRows method intervalNs gapNs)
          (samplePolledTimeline intervalNs appRows))).filterMap
            (summary openRun extendRun)).map unforced =
      ((linkedRuns (linked appRows method intervalNs gapNs)
        ((samplePolledTimeline intervalNs appRows).filter fun sample =>
          owns appRows participant sample.rowIndex)).filterMap
            (summary openRun extendRun)).map unforced := by
  have hfilter : ∀ runs : List PolledRun,
      (runs.filter fun run => owns appRows participant run.rowIndex).map unforced =
        (runs.map unforced).filter fun run => owns appRows participant run.rowIndex := by
    intro runs
    rw [List.filter_map]
    rfl
  have hmap : ∀ runs : List PolledRun,
      (runs.map (globalRun appRows participant)).map unforced =
        (runs.map unforced).map (globalRun appRows participant) := by
    intro runs
    rw [List.map_map, List.map_map]
    rfl
  unfold Isolated polledRuns
  rw [hfilter, hmap, groupPolledRuns_eq, groupPolledRuns_eq, ← hfilter, filter_summaries,
    timeline_filter, linkedRuns_map (linked (rowsOf appRows participant) method intervalNs gapNs)
      fun a ha b hb => linked_rowsOf ha hb, List.filterMap_map, ← hmap]
  have hsummary : (summary openRun extendRun ∘ List.map (globalSample appRows participant)) =
      fun samples => (summary openRun extendRun samples).map (globalRun appRows participant) :=
    funext summary_globalSample
  have hmapped := List.map_filterMap (f := summary openRun extendRun)
    (g := globalRun appRows participant)
    (l := linkedRuns (linked (rowsOf appRows participant) method intervalNs gapNs)
      (samplePolledTimeline intervalNs (rowsOf appRows participant)))
  rw [hsummary, hmapped]

/-- In the timeline, being uninterrupted means that there is no interruption. -/
theorem uninterrupted_timeline :
    Uninterrupted (linked appRows method intervalNs gapNs)
        (fun sample => owns appRows participant sample.rowIndex)
        (samplePolledTimeline intervalNs appRows) ↔
      ¬ ∃ x between next,
        Interruption appRows method intervalNs gapNs participant x between next := by
  have hinterrupts : ∀ x between next,
      Interrupts Before (linked appRows method intervalNs gapNs)
          (fun sample => owns appRows participant sample.rowIndex)
          (samplePolledTimeline intervalNs appRows) x between next ↔
        Interruption appRows method intervalNs gapNs participant x between next := by
    intro x between next
    simp only [Interrupts, mem_timeline, linked, Bool.and_eq_true, beq_iff_eq, decide_eq_true_eq]
    constructor
    · rintro ⟨hsampled, hordered, howners, ⟨hsame, hclose⟩, hneighbours⟩
      exact ⟨hsampled, hordered, howners, hsame, hclose, hneighbours⟩
    · rintro ⟨hsampled, hordered, howners, hsame, hclose, hneighbours⟩
      exact ⟨hsampled, hordered, howners, ⟨hsame, hclose⟩, hneighbours⟩
  simp only [← hinterrupts]
  exact uninterrupted_iff before_irrefl before_trans timeline_ordered

/-- Without an interruption the participant's runs are those of its own rows. -/
theorem isolated_of_no_interruption
    (h : ¬ ∃ x between next,
      Interruption appRows method intervalNs gapNs participant x between next) :
    Isolated appRows method intervalNs gapNs participant := by
  rw [isolated_iff_groups, ownRuns_eq_of_uninterrupted
    (owns_of_linked appRows method intervalNs gapNs participant) (uninterrupted_timeline.mpr h)]

/-- An interruption splits a run that the participant's own rows keep whole. -/
theorem not_isolated_of_interruption {x between next : PolledSample}
    (h : Interruption appRows method intervalNs gapNs participant x between next) :
    ¬ Isolated appRows method intervalNs gapNs participant := by
  intro hisolated
  have hlength := congrArg List.length (isolated_iff_groups.mp hisolated)
  rw [List.length_map, List.length_map, length_filterMap_summary, length_filterMap_summary]
    at hlength
  · have huninterrupted := uninterrupted_of_length_eq
      (owns_of_linked appRows method intervalNs gapNs participant) hlength
    exact uninterrupted_timeline.mp huninterrupted ⟨x, between, next, h⟩
  · exact nil_not_mem_linkedRuns _ _
  · exact fun hmem => nil_not_mem_linkedRuns _ _ (List.mem_of_mem_filter hmem)

/-- The runs of a participant are those of its own rows exactly when no sample of another
participant interrupts them. -/
theorem polled_isolation_iff (appRows : List Row) (method : PolledEmulationMethod)
    (intervalNs gapNs : Int) (participant : String) :
    Isolated appRows method intervalNs gapNs participant ↔
      ¬ ∃ x between next,
        Interruption appRows method intervalNs gapNs participant x between next := by
  constructor
  · rintro hisolated ⟨x, between, next, h⟩
    exact not_isolated_of_interruption h hisolated
  · exact isolated_of_no_interruption

end Participant

/-- Two participants that use one app each over the same twenty nanoseconds. -/
def sharedMinute : List Row :=
  [{ participantId := "p", appPackageName := "a", startTimestampNs := some 0,
     stopTimestampNs := some 20 },
   { participantId := "q", appPackageName := "b", startTimestampNs := some 0,
     stopTimestampNs := some 20 }]

/-- Polled every ten nanoseconds, the second participant's sample at instant 0 ends the first
participant's run after one sample. -/
theorem sharedMinute_not_isolated :
    ¬ Isolated sharedMinute .cerit2025SampleCountV1 10 15 "p" := by
  have hfirst : firstInstant 10 0 = 0 := by decide
  have hpolls : ∀ t : Int, 0 ≤ t → t ≤ 20 → (10 : Int) ∣ t → ∀ package person : String,
      Polls 10 { participantId := person, appPackageName := package,
                 startTimestampNs := some 0, stopTimestampNs := some 20 } t := by
    intro t hlow hhigh hdvd package person
    refine ⟨0, 20, rfl, rfl, by decide, by omega, hhigh, ?_, by omega⟩
    exact Int.le_trans hhigh (by decide)
  have hinterruption : Interruption sharedMinute .cerit2025SampleCountV1 10 15 "p"
      ⟨0, 0⟩ ⟨1, 0⟩ ⟨0, 10⟩ := {
    sampled := ⟨⟨by decide, _, rfl, hpolls 0 (by omega) (by omega) (by omega) _ _⟩,
      ⟨by decide, _, rfl, hpolls 0 (by omega) (by omega) (by omega) _ _⟩,
      ⟨by decide, _, rfl, hpolls 10 (by omega) (by omega) (by omega) _ _⟩⟩
    ordered := ⟨.inr ⟨rfl, by decide⟩, .inl (by decide)⟩
    owners := by decide
    sameApp := rfl
    close := by decide
    neighbours := by
      rintro ⟨index, t⟩ ⟨-, row, hrow, start, stop, hstart, -, -, -, -, -, hdvd⟩ hown
        ⟨hafter, hbefore⟩
      match index with
      | 0 =>
          obtain rfl : row = _ := (Option.some.inj hrow).symm
          obtain rfl : start = 0 := (Option.some.inj hstart).symm
          have hgrid : (10 : Int) ∣ t := by simpa [hfirst] using hdvd
          simp only [Before] at hafter hbefore
          omega
      | 1 => exact absurd hown (show ¬ owns sharedMinute "p" 1 = true by decide)
      | index + 2 => simp [sharedMinute] at hrow }
  exact not_isolated_of_interruption hinterruption

end Chronicle.Polled
