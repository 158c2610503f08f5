import Chronicle.Credit.Decisions
import Chronicle.Pipeline.Candidates

/-!
# Settled durations and unobserved ends

A duration that the minimum blanked is meant to stay blank, and an episode without an observed end
is meant to stay without one. Every stage keeps both, except that the screen bound gives a stop and
a duration to whatever row it clips.
-/

namespace Chronicle.Pipeline

open Chronicle.Library Chronicle.Library.Stages Chronicle.Matcher

namespace AppRun

variable (run : AppRun)

/-- A property of rows that survives every stage except, perhaps, the screen bound. -/
structure Survives (P : Row → Prop) : Prop where
  descends : ∀ row later, Descends row later → P row → P later
  placeholder : ∀ sample ∈ run.policyRows.rows,
    P (placeholderRow run.environment.calendar sample)

variable {run} {P : Row → Prop}

theorem Survives.of_descendsFrom (h : run.Survives P) {rows later : List Row}
    (hdescends : DescendsFrom rows later) (hrows : Every P rows) : Every P later := by
  intro row hrow
  obtain ⟨source, hsource, hrel⟩ := hdescends row hrow
  exact h.descends source row hrel (hrows source hsource)

/-- A stage whose rows descend from its input keeps the property. -/
theorem Survives.preserves (h : run.Survives P) {stage : RowStage}
    (hstage : ∀ rows later, stage rows = .ok later → DescendsFrom rows later) :
    Preserves (Every P) stage :=
  fun rows later hrows hok => h.of_descendsFrom (hstage rows later hok) hrows

theorem Survives.preserves_total (h : run.Survives P) {stage : List Row → List Row}
    (hstage : ∀ rows, DescendsFrom rows (stage rows)) :
    Preserves (Every P) (fun rows => .ok (stage rows) : RowStage) := by
  refine h.preserves fun rows later hok => ?_
  cases hok
  exact hstage rows

theorem Survives.inclusion (h : run.Survives P) : Preserves (Every P) run.inclusionStage :=
  h.preserves_total fun rows => descendsFrom_applyAppInclusionPolicy rows _ _ _

theorem Survives.layers (h : run.Survives P) :
    ∀ stage ∈ run.layerStages, Preserves (Every P) stage := by
  simp only [layerStages, List.forall_mem_cons]
  refine ⟨?_, ?_, ?_, List.forall_mem_nil _⟩
  · exact h.preserves_total fun rows => .of_subset (List.filter_subset_self rows)
  · exact h.preserves_total descendsFrom_orderAppEpisodes
  · exact h.preserves fun _ _ hok => descendsFrom_segmentConcurrentUsage hok

theorem Survives.annotations (h : run.Survives P) :
    ∀ stage ∈ run.annotationStages, Preserves (Every P) stage := by
  simp only [annotationStages, List.forall_mem_cons]
  refine ⟨?_, ?_, ?_, ?_, ?_, ?_, List.forall_mem_nil _⟩
  · exact h.preserves_total fun rows => descendsFrom_joinCodebook rows _ _
  · exact h.preserves_total fun rows => descendsFrom_deriveBroadCategory rows _
  · exact h.preserves_total fun rows => descendsFrom_collapseAppGenre rows _
  · exact h.preserves_total fun rows => descendsFrom_deriveEngagementBasis rows _
  · exact h.preserves_total fun rows => descendsFrom_applyEpisodeFlags _ rows _ _
  · exact h.preserves_total fun rows => descendsFrom_intervalQualityStep _ _ rows _

theorem Survives.cleaning (h : run.Survives P) :
    ∀ stage ∈ run.cleaningStages, Preserves (Every P) stage := by
  simp only [cleaningStages, List.forall_mem_cons]
  refine ⟨?_, ?_, ?_, List.forall_mem_nil _⟩
  · exact h.preserves_total fun rows => .of_subset (List.filter_subset_self rows)
  · refine h.preserves_total fun rows => ?_
    unfold removeZeroDurationRows
    split
    · exact .of_subset (List.filter_subset_self rows)
    · exact .refl rows
  · exact h.preserves_total fun rows => descendsFrom_assignUsageSessionIds _ rows _

theorem Survives.afterBound (h : run.Survives P) :
    ∀ stage ∈ run.stagesAfterBound, Preserves (Every P) stage := by
  intro stage hstage
  rcases List.mem_append.mp hstage with hstage | hstage
  · rcases List.mem_append.mp hstage with hstage | hstage
    · exact h.layers stage hstage
    · exact h.annotations stage hstage
  · exact h.cleaning stage hstage

theorem Survives.window (h : run.Survives P) : Preserves (Every P) run.windowStage := by
  refine h.preserves fun rows later hok => ?_
  unfold windowStage at hok
  split at hok
  · split at hok
    · cases hok
    · cases hok
      exact .of_subset (List.filter_subset_self rows)
  · cases hok
    exact .refl rows

theorem Survives.person (h : run.Survives P) : Preserves (Every P) run.personStage := by
  refine h.preserves fun rows later hok => ?_
  unfold personStage at hok
  split at hok
  · split at hok
    · cases hok
    · obtain ⟨resolution, -, hok⟩ := bind_eq_ok.mp hok
      exact descendsFrom_attributePerson hok
  · cases hok
    exact .refl rows

theorem Survives.placeholders (h : run.Survives P) (windows : List ResolvedParticipantWindow) :
    Preserves (Every P) (run.placeholderStage windows) := by
  intro rows later hrows hok
  cases hok
  split
  · intro row hrow
    rcases mem_addPlaceholderRows hrow with hrow | ⟨sample, hsample, rfl⟩
    · exact hrows row hrow
    · exact h.placeholder sample (placeholderDaySamples_subset _ hsample)
  · exact hrows

theorem Survives.attribution (h : run.Survives P) (cleaned : List Row) :
    ∀ stage ∈ run.attributionStages cleaned, Preserves (Every P) stage := by
  simp only [attributionStages, List.forall_mem_cons]
  refine ⟨h.window, h.person, ?_, h.placeholders _, List.forall_mem_nil _⟩
  exact h.preserves_total fun rows => descendsFrom_splitSessionsAtLocalMidnight _ rows _

section Reaches

variable (h : run.Survives P)
  (hcandidates : ∀ rows selected, run.candidates = .ok (rows, selected) → Every P rows)
  (hclassify : ∀ selected, Preserves (Every P) (run.classifyStage selected))

include h hclassify

theorem Survives.beforeBound (selected : List Nat) :
    ∀ stage ∈ run.stagesBeforeBound selected, Preserves (Every P) stage := by
  simp only [stagesBeforeBound, List.forall_mem_cons]
  exact ⟨hclassify selected, h.inclusion, List.forall_mem_nil _⟩

include hcandidates

theorem Survives.included {rows : List Row} (hrows : run.includedRows = .ok rows) :
    Every P rows := by
  obtain ⟨⟨start, selected⟩, hstart, hfinish⟩ := bind_eq_ok.mp hrows
  exact invariant_of_finish (hcandidates start selected hstart)
    (h.beforeBound hclassify selected) hfinish

/-- If the candidates have the property and their classification keeps it, then the whole run keeps
it exactly when the screen bound does. -/
theorem Survives.reaches_iff :
    (∀ rows, run.Reaches rows → Every P rows) ↔
      ∀ rows, run.includedRows = .ok rows → ∀ bounded, run.screenBoundStage rows = .ok bounded →
        Every P bounded := by
  constructor
  · intro hall rows hrows bounded hbounded
    refine hall bounded (.cleaning hrows ?_)
    rw [reached, hbounded]
    exact List.mem_cons_of_mem rows (mem_reached_self _ bounded)
  · intro hbound rows hreaches
    have hafter : ∀ included bounded, run.includedRows = .ok included →
        run.screenBoundStage included = .ok bounded →
        ∀ later ∈ reached run.stagesAfterBound bounded, Every P later :=
      fun included bounded hrows hbounded =>
        invariant_of_mem_reached (hbound included hrows bounded hbounded) h.afterBound
    have hcleaned : ∀ cleaned, run.cleanedRows = .ok cleaned → Every P cleaned := by
      intro cleaned hrows
      obtain ⟨included, hok, hfinish⟩ := bind_eq_ok.mp hrows
      obtain ⟨bounded, hbounded, hfinish⟩ := bind_eq_ok.mp hfinish
      exact invariant_of_finish (hbound included hok bounded hbounded) h.afterBound hfinish
    cases hreaches with
    | classification hstart hmem =>
        exact invariant_of_mem_reached (hcandidates _ _ hstart) (h.beforeBound hclassify _) rows
          hmem
    | cleaning hok hmem =>
        rw [reached] at hmem
        split at hmem
        · next bounded hbounded =>
            rcases List.mem_cons.mp hmem with rfl | hmem
            · exact h.included hcandidates hclassify hok
            · exact hafter _ bounded hok hbounded rows hmem
        · exact List.mem_singleton.mp hmem ▸ h.included hcandidates hclassify hok
    | attribution hok hmem =>
        exact invariant_of_mem_reached (hcleaned _ hok) (h.attribution _) rows hmem

end Reaches

/-! ## The screen bound -/

/-- The screen bound clips the row: it starts in a screen interval that ends before it does. -/
def Clips (run : AppRun) (row : Row) : Prop :=
  ∃ start interval, row.startTimestampNs = some start ∧
    intervalAt (participantIntervals run.environment.intervalOrder run.screenRows
      row.participantId) start = some interval ∧
    (clippingStop row interval).isSome

theorem boundRow_eq_some {order : IntervalSort} {screenRows : List Row} {row bounded : Row} :
    boundRow order screenRows row = some bounded ↔
      ∃ start interval, row.startTimestampNs = some start ∧
        intervalAt (participantIntervals order screenRows row.participantId) start =
          some interval ∧
        boundBy row start interval = bounded ∧
        bounded.stopTimestampNs.all (fun stop => start < stop) = true := by
  simp only [boundRow, bind, Option.bind_eq_some_iff]
  constructor
  · rintro ⟨start, hstart, interval, hinterval, h⟩
    split at h
    · next hkept => exact ⟨start, interval, hstart, hinterval, Option.some.inj h,
        Option.some.inj h ▸ hkept⟩
    · cases h
  · rintro ⟨start, interval, hstart, hinterval, rfl, hkept⟩
    exact ⟨start, hstart, interval, hinterval, if_pos hkept⟩

theorem intervalAt_stop {intervals : List ScreenInterval} {start screenStop : Int}
    {interval : ScreenInterval} (h : intervalAt intervals start = some interval)
    (hstop : interval.2 = some screenStop) : start < screenStop := by
  have hopen := List.find?_some h
  simpa [hstop] using hopen

theorem clippingStop_eq_some {row : Row} {interval : ScreenInterval} {screenStop : Int}
    (h : clippingStop row interval = some screenStop) : interval.2 = some screenStop :=
  (Option.filter_eq_some_iff.mp h).1

/-- A clipped row stays in the table, with the stop and the duration of its screen interval. -/
theorem exists_clipped {row : Row} (h : run.Clips row) :
    ∃ start screenStop, boundRow run.environment.intervalOrder run.screenRows row =
      some (row.clip start screenStop) := by
  obtain ⟨start, interval, hstart, hinterval, hclip⟩ := h
  obtain ⟨screenStop, hclip⟩ := Option.isSome_iff_exists.mp hclip
  refine ⟨start, screenStop, boundRow_eq_some.mpr ⟨start, interval, hstart, hinterval, ?_, ?_⟩⟩
  · rw [boundBy, hclip]
    rfl
  · simpa [Row.clip, Row.publishDuration] using
      intervalAt_stop hinterval (clippingStop_eq_some hclip)

/-- A row that is not clipped stays as it is or goes. -/
theorem eq_of_not_clips {row bounded : Row} (h : ¬ run.Clips row)
    (hbound : boundRow run.environment.intervalOrder run.screenRows row = some bounded) :
    bounded = row := by
  obtain ⟨start, interval, hstart, hinterval, rfl, -⟩ := boundRow_eq_some.mp hbound
  cases hclip : clippingStop row interval with
  | none =>
      rw [boundBy, hclip]
      rfl
  | some screenStop => exact absurd ⟨start, interval, hstart, hinterval, by simp [hclip]⟩ h

/-- The screen bound keeps a property that clipping a marked row destroys, and clipping any other
row cannot, exactly when it clips no marked row. -/
theorem every_screenBound_iff {marked : Row → Prop} {rows : List Row} (hrows : Every P rows)
    (hmarked : ∀ row start screenStop, marked row → ¬ P (row.clip start screenStop))
    (hother : ∀ row start screenStop, ¬ marked row → P (row.clip start screenStop)) :
    (∀ bounded, run.screenBoundStage rows = .ok bounded → Every P bounded) ↔
      (run.options.excludesLockedScreen = true → ∀ row ∈ rows, marked row → ¬ run.Clips row) := by
  simp only [screenBoundStage, Except.ok.injEq, forall_eq']
  split
  · next hon =>
      simp only [hon, forall_true_left]
      constructor
      · intro hall row hrow hmark hclips
        obtain ⟨start, screenStop, hbound⟩ := exists_clipped hclips
        exact hmarked row start screenStop hmark
          (hall _ (List.mem_filterMap.mpr ⟨row, hrow, hbound⟩))
      · intro hclear bounded hbounded
        obtain ⟨row, hrow, hbound⟩ := List.mem_filterMap.mp hbounded
        by_cases hclips : run.Clips row
        · obtain ⟨start, screenStop, hclipped⟩ := exists_clipped hclips
          obtain rfl := Option.some.inj (hbound.symm.trans hclipped)
          exact hother row start screenStop fun hmark => hclear row hrow hmark hclips
        · exact eq_of_not_clips hclips hbound ▸ hrows row hrow
  · next hoff => exact ⟨fun _ hon => absurd hon hoff, fun _ => hrows⟩

/-- If moreover clipping breaks the property on marked rows and on no others, the whole run keeps
it exactly when the screen bound is off or clips no marked row. -/
theorem Survives.reaches_iff_unclipped {marked : Row → Prop} (h : run.Survives P)
    (hcandidates : ∀ rows selected, run.candidates = .ok (rows, selected) → Every P rows)
    (hclassify : ∀ selected, Preserves (Every P) (run.classifyStage selected))
    (hmarked : ∀ row start screenStop, marked row → ¬ P (row.clip start screenStop))
    (hother : ∀ row start screenStop, ¬ marked row → P (row.clip start screenStop)) :
    (∀ rows, run.Reaches rows → Every P rows) ↔
      (run.options.excludesLockedScreen = true → ∀ rows, run.includedRows = .ok rows →
        ∀ row ∈ rows, marked row → ¬ run.Clips row) := by
  have hbound : ∀ rows, run.includedRows = .ok rows →
      ((∀ bounded, run.screenBoundStage rows = .ok bounded → Every P bounded) ↔
        (run.options.excludesLockedScreen = true → ∀ row ∈ rows, marked row → ¬ run.Clips row)) :=
    fun rows hrows =>
      every_screenBound_iff (h.included hcandidates hclassify hrows) hmarked hother
  rw [h.reaches_iff hcandidates hclassify]
  constructor
  · exact fun hall hon rows hrows => (hbound rows hrows).mp (hall rows hrows) hon
  · exact fun hall rows hrows => (hbound rows hrows).mpr fun hon => hall hon rows hrows

theorem every_settled_classifyStage (run : AppRun) (selected : List Nat) :
    Preserves (Every Row.Settled) (run.classifyStage selected) := fun _ _ hrows hok =>
  every_classifyEpisodeDurations (fun _ _ _ => settled_classifyRow) hrows hok

theorem every_unended_classifyStage (run : AppRun) (selected : List Nat) :
    Preserves (Every Row.Unended) (run.classifyStage selected) := fun _ _ hrows hok =>
  every_classifyEpisodeDurations (fun _ _ _ => unended_classifyRow) hrows hok

theorem survives_settled (run : AppRun) : run.Survives Row.Settled where
  descends := fun _ _ h => h.settled
  placeholder := fun sample hsample => by
    refine settled_of_not_blank ?_
    have htiming := run.policyRows.noTiming sample hsample
    exact congrArg EpisodeTiming.minimumDurationBlankApplied htiming

theorem survives_unended (run : AppRun) : run.Survives Row.Unended where
  descends := fun _ _ h => h.unended
  placeholder := fun _ _ hmissing => by
    have hlabel : appUsage = endOfUsageMissing := hmissing
    simp [appUsage, endOfUsageMissing] at hlabel

theorem untouched_candidates {rows : List Row} {selected : List Nat}
    (h : run.candidates = .ok (rows, selected)) : Every Row.Untouched rows := by
  unfold candidates at h
  split at h
  · next matching _ =>
      cases h
      exact fun row hrow => (candidates_materialize _ matching run.filteredPackages row hrow).1
  · obtain ⟨copies, hcopies, h⟩ := map_eq_ok.mp h
    obtain ⟨rfl, -⟩ := Prod.mk.inj h
    have huntouched := untouched_schoedelRows
      (fun row hrow => untouched_of_noTiming (run.events.noTiming row hrow)) hcopies
    intro row hrow
    rcases List.mem_append.mp hrow with hrow | hrow
    all_goals
      obtain ⟨copy, hcopy, rfl⟩ := List.mem_map.mp hrow
      exact huntouched copy (List.mem_of_mem_filter hcopy)

theorem settled_candidates {rows : List Row} {selected : List Nat}
    (h : run.candidates = .ok (rows, selected)) : Every Row.Settled rows :=
  fun row hrow => settled_of_not_blank (untouched_candidates h row hrow).1

theorem unended_candidates {matching : Matching run.events} (hmatched : run.episodes = .matched matching)
    {rows : List Row} {selected : List Nat} (h : run.candidates = .ok (rows, selected)) :
    Every Row.Unended rows := by
  rw [candidates, hmatched] at h
  cases h
  intro row hrow
  obtain ⟨-, hblank, hstop⟩ := candidates_materialize _ matching run.filteredPackages row hrow
  exact fun hmissing => ⟨hstop hmissing, hblank⟩

end AppRun

/-- The whole run keeps every blanked duration blank, and so credits none of the blanked episodes,
exactly when the screen bound is off or clips no blanked row. -/
theorem blanked_durations_stay_blank_iff (run : AppRun) :
    (∀ rows, run.Reaches rows → ∀ row ∈ rows, row.minimumDurationBlankApplied = true →
      row.durationSeconds = none ∧ row.durationMinutes = none ∧
        Credit.isCreditSession row = false) ↔
      (run.options.excludesLockedScreen = true → ∀ rows, run.includedRows = .ok rows →
        ∀ row ∈ rows, row.minimumDurationBlankApplied = true → ¬ run.Clips row) := by
  have hcredit : ∀ row : Row, row.Settled → row.minimumDurationBlankApplied = true →
      Credit.isCreditSession row = false := by
    intro row hsettled hblank
    simp [Credit.isCreditSession, (hsettled hblank).2]
  rw [← (AppRun.survives_settled run).reaches_iff_unclipped
    (fun _ _ => AppRun.settled_candidates) (AppRun.every_settled_classifyStage run) ?hmarked ?hother]
  case hmarked =>
    intro row start screenStop hblank hclip
    simpa [Row.clip, Row.publishDuration] using (hclip hblank).1
  case hother =>
    exact fun row start screenStop hblank happlied => absurd happlied hblank
  constructor
  · exact fun h rows hrows row hrow hblank =>
      ⟨(h rows hrows row hrow hblank).1, (h rows hrows row hrow hblank).2.1⟩
  · exact fun h rows hrows row hrow hblank =>
      ⟨(h rows hrows row hrow hblank).1, (h rows hrows row hrow hblank).2,
        hcredit row (h rows hrows row hrow) hblank⟩

/-- The whole run keeps every episode without an observed end without one, exactly when the screen
bound is off or no such row starts in a screen interval that ends. -/
theorem unobserved_ends_stay_unobserved_iff (run : AppRun) (matching : Matching run.events)
    (hmatched : run.episodes = .matched matching) :
    (∀ rows, run.Reaches rows → ∀ row ∈ rows, row.interactionType = endOfUsageMissing →
      row.stopTimestampNs = none ∧ row.durationSeconds = none ∧ row.durationMinutes = none) ↔
      (run.options.excludesLockedScreen = true → ∀ rows, run.includedRows = .ok rows →
        ∀ row ∈ rows, row.interactionType = endOfUsageMissing → ¬ run.Clips row) := by
  refine (AppRun.survives_unended run).reaches_iff_unclipped
    (fun _ _ => AppRun.unended_candidates hmatched) (AppRun.every_unended_classifyStage run)
    (fun row start screenStop hmissing hclip => ?_)
    fun row start screenStop hmissing hlabel => absurd hlabel hmissing
  simpa [Row.clip, Row.publishDuration] using (hclip hmissing).1

/-! ## Clipped runs -/

/-- Library functions that no stage of the clipped runs asks anything of. -/
def plainEnvironment : Environment where
  calendar := ⟨fun _ => none, fun _ => none⟩
  formatNumber := fun _ => ""
  searchDigest := fun _ _ _ => ""
  intervalOrder := .stable

/-- An app is resumed at the first instant and paused three seconds later. -/
def blipEvents : EventTable where
  rows :=
    [{ participantId := "p", appPackageName := "app", interactionType := activityResumed },
      { participantId := "p", appPackageName := "app", interactionType := activityPaused,
        eventTimestampNs := 3000000000 }]
  noTiming := by simp

/-- The screen was on for the first two seconds. -/
def blipScreenRows : List Row :=
  [{ participantId := "p", startTimestampNs := some 0, stopTimestampNs := some 2000000000 }]

/-- A run over the blip, bounded by the screen, with a minimum of ten seconds. -/
def blipRun (matching : Matching blipEvents) : AppRun where
  environment := plainEnvironment
  options := { durations := { minimumUsageDuration := .finite 10 }, excludesLockedScreen := true }
  support := {}
  events := blipEvents
  policyRows := blipEvents
  episodes := .matched matching
  filteredPackages := []
  filteredApplicationLabels := []
  backgroundApps := []
  screenRows := blipScreenRows
  windowRows := []
  excludedParticipants := []

/-- The pause ends the episode. -/
def closedBlip : Matching blipEvents where
  result :=
    { startIndices := [0], stopStartIndices := [0], stopEventIndices := [1],
      stopReasons := [.sameAppStop] }
  startsOpen := by decide

/-- No stop is found for the resume. -/
def missingBlip : Matching blipEvents where
  result := { startIndices := [0], missingIndices := [0], missingReasons := [.unobserved] }
  startsOpen := by decide

/-- The cleaned table of the run has a row with the property. -/
def cleanedAny (run : AppRun) (p : Row → Bool) : Bool :=
  match run.cleanedRows with
  | .ok rows => rows.any p
  | .error _ => false

theorem exists_reached_of_cleanedAny {run : AppRun} {p : Row → Bool}
    (h : cleanedAny run p = true) : ∃ rows, run.Reaches rows ∧ ∃ row ∈ rows, p row = true := by
  unfold cleanedAny at h
  split at h
  · next rows hrows =>
      exact ⟨rows, .attribution hrows (mem_reached_self _ rows), List.any_eq_true.mp h⟩
  · cases h

/-- The blip is blanked, and credited with the two seconds of its screen interval. -/
theorem clipped_blip_credited :
    ¬ ∀ rows, (blipRun closedBlip).Reaches rows →
      ∀ row ∈ rows, row.minimumDurationBlankApplied = true →
        row.durationSeconds = none ∧ row.durationMinutes = none ∧
          Credit.isCreditSession row = false := by
  have hcredited : cleanedAny (blipRun closedBlip)
      (fun row => row.minimumDurationBlankApplied && Credit.isCreditSession row) = true := by
    decide +kernel
  obtain ⟨rows, hreaches, row, hrow, hp⟩ := exists_reached_of_cleanedAny hcredited
  obtain ⟨hblank, hcredit⟩ := Bool.and_eq_true_iff.mp hp
  intro h
  exact absurd (hcredit.symm.trans (h rows hreaches row hrow hblank).2.2) Bool.noConfusion

/-- The unended blip is given the stop of its screen interval. -/
theorem clipped_missing_ended :
    ¬ ∀ rows, (blipRun missingBlip).Reaches rows →
      ∀ row ∈ rows, row.interactionType = endOfUsageMissing →
        row.stopTimestampNs = none ∧ row.durationSeconds = none ∧ row.durationMinutes = none := by
  have hended : cleanedAny (blipRun missingBlip)
      (fun row => row.interactionType = endOfUsageMissing && row.stopTimestampNs.isSome) = true := by
    decide +kernel
  obtain ⟨rows, hreaches, row, hrow, hp⟩ := exists_reached_of_cleanedAny hended
  simp only [Bool.and_eq_true, decide_eq_true_eq] at hp
  intro h
  simp [(h rows hreaches row hrow hp.1).1] at hp

/-- The equivalence at the unended blip. -/
theorem unobserved_end_of_missing_blip :
    (∀ rows, (blipRun missingBlip).Reaches rows →
      ∀ row ∈ rows, row.interactionType = endOfUsageMissing →
        row.stopTimestampNs = none ∧ row.durationSeconds = none ∧ row.durationMinutes = none) ↔
      ((blipRun missingBlip).options.excludesLockedScreen = true →
        ∀ rows, (blipRun missingBlip).includedRows = .ok rows →
          ∀ row ∈ rows, row.interactionType = endOfUsageMissing →
            ¬ (blipRun missingBlip).Clips row) :=
  unobserved_ends_stay_unobserved_iff (blipRun missingBlip) missingBlip rfl

end Chronicle.Pipeline
