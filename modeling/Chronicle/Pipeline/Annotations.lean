import Chronicle.Eyes.Evidence
import Chronicle.Library.Loop
import Chronicle.Pipeline.Row

/-!
# Review annotations

Package relabelling, the codebook columns, the engagement columns, the usage flags and the blanking
of filtered timing, once as separate passes over the rows and once fused into a single walk. The
number formatter of the flag labels is a parameter. Where the source skips a write of the value that
is already there, the model writes it.
-/

namespace Chronicle.Pipeline

open Chronicle.Eyes (isBlank)
open Chronicle.Library Chronicle.Library.Loop Chronicle.Library.Machine

/-- `ACTIVITY_STOPPED` -/
def activityStopped : String := "Activity Stopped"

/-- `FILTERED_STOPPED` -/
def filteredStopped : String := "Filtered App Stopped"

/-- `IntervalQualityPolicy` -/
inductive IntervalQualityPolicy where
  | none
  | culverhouseTrimAndLog
deriving DecidableEq, Repr

/-- `blanks_filtered_timing` -/
def IntervalQualityPolicy.blanksFilteredTiming (policy : IntervalQualityPolicy) : Bool :=
  policy == .none

/-! ## The codebook -/

/-- The layout of the codebook, as far as rows are concerned. -/
structure CodebookSchema where
  broadIndices : List Nat
  genreIndices : List Nat
  emptyFields : List (Option String)

/-- The codebook columns of each package. -/
abbrev CodebookMap := List (String × List (Option String))

/-- `join_codebook_row` -/
def joinCodebookRow (schema : CodebookSchema) (codebookMap : CodebookMap) (row : Row) : Row :=
  { row with
    codebookFields := (codebookMap.lookup row.appPackageName).getD schema.emptyFields }

/-- The value at a field position, if there is one. -/
def Row.codebookField (row : Row) (index : Nat) : Option String := (row.codebookFields[index]?).join

/-- `derive_broad_category_row` -/
def deriveBroadCategoryRow (indices : List Nat) (row : Row) : Row :=
  let candidates := indices.map row.codebookField ++ [row.broadAppCategory]
  let chosen := candidates.findSome? fun candidate => candidate.filter fun value => !isBlank value
  { row with broadAppCategory := some (chosen.getD "Unknown") }

/-- `collapse_app_genre_row` -/
def collapseAppGenreRow (genreFields : List Nat) (row : Row) : Row :=
  match (genreFields.filterMap row.codebookField).filter fun value => !isBlank value with
  | [] => { row with genreIdScraped := some "Unknown" }
  | first :: others =>
      if others.all (· = first) then
        { row with genreIdScraped := some first, codebookGenreFieldsCleared := some genreFields }
      else { row with genreIdScraped := none, codebookGenreFieldsCleared := none }

/-- `join_codebook` -/
def joinCodebook (rows : List Row) (schema : Option CodebookSchema) (codebookMap : CodebookMap) :
    List Row :=
  match schema with
  | none => rows
  | some schema => rows.map (joinCodebookRow schema codebookMap)

/-- `derive_broad_category` -/
def deriveBroadCategory (rows : List Row) (schema : Option CodebookSchema) : List Row :=
  match schema with
  | none => rows
  | some schema => rows.map (deriveBroadCategoryRow schema.broadIndices)

/-- `collapse_app_genre` -/
def collapseAppGenre (rows : List Row) (schema : Option CodebookSchema) : List Row :=
  match schema with
  | none => rows
  | some schema => rows.map (collapseAppGenreRow schema.genreIndices)

/-! ## The engagement walk -/

/-- The stop and the package of the last row, for each participant that has one. -/
abbrev PreviousRows := String → Option (Int × String)

/-- `previous_any` and `previous_valid` -/
structure EngagementState where
  previousAny : PreviousRows
  previousValid : PreviousRows

/-- The state before the first row. -/
def EngagementState.initial : EngagementState := ⟨fun _ => none, fun _ => none⟩

/-- One row's engagement columns. -/
structure EngagementMetrics where
  newEngage30s : Int
  newEngageCustom : Int
  switchedApp : Int
  timeGapHours : Binary64
deriving DecidableEq

/-- `i32::from` -/
def indicator (test : Bool) : Int := if test then 1 else 0

/-- `metrics` -/
def metrics (previous : Option (Int × String)) (start : Option Int) (package : String)
    (customDuration : Binary64) : EngagementMetrics :=
  match previous, start with
  | none, _ => ⟨1, 1, 0, .finite 0⟩
  | some previous, none => ⟨0, 0, indicator (package ≠ previous.2), .finite 0⟩
  | some previous, some start =>
      let gapSeconds := (Binary64.ofInt (wrap64 (start - previous.1))).divConst 1000000000
      ⟨indicator (Binary64.lt (.finite 30) gapSeconds),
        indicator (Binary64.lt customDuration gapSeconds), indicator (package ≠ previous.2),
        gapSeconds.divConst 3600⟩

/-- The row belongs to the primary layer. -/
def Row.isPrimary (row : Row) : Bool := row.usageLayer ≠ some "secondary"

/-- The row counts for the `valid_app` columns. -/
def Row.isValid (row : Row) : Bool := row.isPrimary && row.interactionType = appUsage

/-- The row counts for the `any_app` columns. -/
def Row.isAny (row : Row) : Bool :=
  row.isValid || row.isPrimary && row.interactionType = filteredAppUsage

/-- The `any_app` columns. -/
def Row.withAny (row : Row) (m : EngagementMetrics) : Row :=
  { row with
    anyAppNewEngage30s := m.newEngage30s
    anyAppNewEngageCustom := m.newEngageCustom
    anyAppSwitchedApp := m.switchedApp
    anyAppUsageTimeGapHours := m.timeGapHours }

/-- The `valid_app` columns. -/
def Row.withValid (row : Row) (m : EngagementMetrics) : Row :=
  { row with
    validAppNewEngage30s := m.newEngage30s
    validAppNewEngageCustom := m.newEngageCustom
    validAppSwitchedApp := m.switchedApp
    validAppUsageTimeGapHours := m.timeGapHours }

/-- One pass of `walk_app_usage_detail_columns`: the row is measured against the last rows of its
participant and, if it has a stop, becomes the last row. A row without a display interval is
measured from its raw episode. -/
def engagementStep (customDuration : Binary64) (state : EngagementState) (row : Row) :
    EngagementState × Row :=
  if row.isAny then
    let start := row.startTimestampNs.or row.rawEpisodeStartTimestampNs
    let stop := row.stopTimestampNs.or row.rawEpisodeStopTimestampNs
    let measure := fun previous : PreviousRows =>
      metrics (previous row.participantId) start row.appPackageName customDuration
    let record := fun previous : PreviousRows =>
      match stop with
      | none => previous
      | some stop => Function.update previous row.participantId (some (stop, row.appPackageName))
    if row.isValid then
      (⟨record state.previousAny, record state.previousValid⟩,
        (row.withAny (measure state.previousAny)).withValid (measure state.previousValid))
    else (⟨record state.previousAny, state.previousValid⟩, row.withAny (measure state.previousAny))
  else (state, row)

/-- `walk_app_usage_detail_columns_with_pre` -/
def walkAppUsageDetailColumnsWithPre (rows : List Row) (customDuration : Binary64)
    (beforeRow afterRow : Row → Row) : List Row :=
  walk (fun state row =>
    let passed := engagementStep customDuration state (beforeRow row)
    (passed.1, afterRow passed.2)) EngagementState.initial rows

/-- `walk_app_usage_detail_columns` -/
def walkAppUsageDetailColumns (rows : List Row) (customDuration : Binary64)
    (afterRow : Row → Row) : List Row :=
  walk (fun state row =>
    let passed := engagementStep customDuration state row
    (passed.1, afterRow passed.2)) EngagementState.initial rows

/-- `add_app_usage_detail_columns` -/
def addAppUsageDetailColumns (rows : List Row) (customDuration : Binary64) : List Row :=
  walkAppUsageDetailColumns rows customDuration id

/-! ## Flags and blanking -/

/-- Each threshold with its label, the highest first. -/
structure PreparedUsageFlags where
  gap : List (Binary64 × String)
  duration : List (Binary64 × String)

/-- The thresholds from the highest down; the sort is stable. -/
def descending (thresholds : List Binary64) : List Binary64 :=
  thresholds.mergeSort fun a b => !Binary64.lt a b

/-- `prepare_usage_flags`; `formatThreshold` prints a number. -/
def prepareUsageFlags (formatThreshold : Binary64 → String)
    (longDataTimeGapThresholds longUsageDurationThresholds : List Binary64) :
    PreparedUsageFlags where
  gap := (descending longDataTimeGapThresholds).map fun threshold =>
    (threshold, ">" ++ formatThreshold threshold ++ "-HR TIME GAP")
  duration := (descending longUsageDurationThresholds).map fun threshold =>
    (threshold, ">" ++ formatThreshold threshold ++ "-HR APP USAGE")

/-- The label of the first threshold the value reaches. -/
def reachedLabel (thresholds : List (Binary64 × String)) (value : Binary64) : Option String :=
  (thresholds.find? fun entry => Binary64.ge value entry.1).map Prod.snd

/-- `mark_app_usage_flags_row` -/
def markAppUsageFlagsRow (thresholds : PreparedUsageFlags) (row : Row) : Row :=
  let gapFlag := reachedLabel thresholds.gap row.dataTimeGapHours
  let durHours := (row.durationMinutes.map fun minutes => minutes.divConst 60).getD (.finite 0)
  let durationFlag := reachedLabel thresholds.duration durHours
  let value := match gapFlag, durationFlag with
    | none, none => "[]"
    | some gap, some duration => "['" ++ gap ++ "', '" ++ duration ++ "']"
    | some gap, none => "['" ++ gap ++ "']"
    | none, some duration => "['" ++ duration ++ "']"
  { row with anyAppUsageFlags := value }

/-- `mark_app_usage_flags` -/
def markAppUsageFlags (formatThreshold : Binary64 → String) (rows : List Row)
    (longDataTimeGapThresholds longUsageDurationThresholds : List Binary64) : List Row :=
  rows.map (markAppUsageFlagsRow
    (prepareUsageFlags formatThreshold longDataTimeGapThresholds longUsageDurationThresholds))

/-- A row without a display interval and duration. -/
def Row.clearTiming (row : Row) : Row :=
  { row with
    startTimestampNs := none
    stopTimestampNs := none
    durationSeconds := none
    durationMinutes := none }

/-- `clear_filtered_usage_timing_row` -/
def clearFilteredUsageTimingRow (row : Row) : Row :=
  if row.interactionType = filteredAppUsage then row.clearTiming else row

/-- `clear_filtered_usage_timing` -/
def clearFilteredUsageTiming (rows : List Row) : List Row := rows.map clearFilteredUsageTimingRow

/-! ## The separate steps -/

/-- The relabelling of a row whose package is filtered. -/
def relabelFilteredPackageRow (filteredPackages : List String) (row : Row) : Row :=
  if row.appPackageName ∈ filteredPackages then
    if row.interactionType = appUsage then
      { row with
        interactionType := filteredAppUsage
        durationSeconds := none
        durationMinutes := none }
    else if row.interactionType = activityStopped then
      { row.clearTiming with interactionType := filteredStopped }
    else row.clearTiming
  else row

/-- The relabelling as a step of its own. -/
def relabelFilteredPackages (filteredPackages : List String) (rows : List Row) : List Row :=
  rows.map (relabelFilteredPackageRow filteredPackages)

/-- `derive_engagement_basis` -/
def deriveEngagementBasis (rows : List Row) (customDuration : Binary64) : List Row :=
  addAppUsageDetailColumns rows customDuration

/-- `apply_episode_flags` -/
def applyEpisodeFlags (formatThreshold : Binary64 → String) (rows : List Row)
    (longDataTimeGapThresholds longUsageDurationThresholds : List Binary64) : List Row :=
  markAppUsageFlags formatThreshold rows longDataTimeGapThresholds longUsageDurationThresholds

/-- `suppress_excluded_timing` -/
def suppressExcludedTiming (rows : List Row) : List Row := clearFilteredUsageTiming rows

/-! ## The fused walks -/

/-- What the fused walks do to a row after its engagement columns. -/
def annotateAfter (thresholds : PreparedUsageFlags) (blank : Bool) (row : Row) : Row :=
  if blank then clearFilteredUsageTimingRow (markAppUsageFlagsRow thresholds row)
  else markAppUsageFlagsRow thresholds row

/-- `apply_review_annotations_one_pass` -/
def applyReviewAnnotationsOnePass (formatThreshold : Binary64 → String) (rows : List Row)
    (customDuration : Binary64)
    (longDataTimeGapThresholds longUsageDurationThresholds : List Binary64)
    (policy : IntervalQualityPolicy) : List Row :=
  walkAppUsageDetailColumns rows customDuration
    (annotateAfter
      (prepareUsageFlags formatThreshold longDataTimeGapThresholds longUsageDurationThresholds)
      policy.blanksFilteredTiming)

/-- What the fused walk does to a row before its engagement columns. -/
def annotateBefore (filteredPackages : List String) (codebook : Option CodebookSchema)
    (codebookMap : CodebookMap) (row : Row) : Row :=
  let row := if filteredPackages.isEmpty then row
    else relabelFilteredPackageRow filteredPackages row
  match codebook with
  | none => row
  | some schema =>
      collapseAppGenreRow schema.genreIndices
        (deriveBroadCategoryRow schema.broadIndices (joinCodebookRow schema codebookMap row))

/-- `apply_static_review_annotations_fused` -/
def applyStaticReviewAnnotationsFused (formatThreshold : Binary64 → String) (rows : List Row)
    (filteredPackages : List String) (codebook : Option CodebookSchema) (codebookMap : CodebookMap)
    (customDuration : Binary64)
    (longDataTimeGapThresholds longUsageDurationThresholds : List Binary64)
    (policy : IntervalQualityPolicy) : List Row :=
  walkAppUsageDetailColumnsWithPre rows customDuration
    (annotateBefore filteredPackages codebook codebookMap)
    (annotateAfter
      (prepareUsageFlags formatThreshold longDataTimeGapThresholds longUsageDurationThresholds)
      policy.blanksFilteredTiming)

/-! ## One walk or separate steps -/

/-- Engagement, flags and, if the policy blanks, the blanking, each over all rows. -/
def reviewAnnotationSteps (formatThreshold : Binary64 → String) (rows : List Row)
    (customDuration : Binary64)
    (longDataTimeGapThresholds longUsageDurationThresholds : List Binary64)
    (policy : IntervalQualityPolicy) : List Row :=
  let rows := deriveEngagementBasis rows customDuration
  let rows := applyEpisodeFlags formatThreshold rows longDataTimeGapThresholds
    longUsageDurationThresholds
  if policy.blanksFilteredTiming then suppressExcludedTiming rows else rows

/-- All seven steps, each over all rows. -/
def staticReviewAnnotationSteps (formatThreshold : Binary64 → String) (rows : List Row)
    (filteredPackages : List String) (codebook : Option CodebookSchema) (codebookMap : CodebookMap)
    (customDuration : Binary64)
    (longDataTimeGapThresholds longUsageDurationThresholds : List Binary64)
    (policy : IntervalQualityPolicy) : List Row :=
  let rows := relabelFilteredPackages filteredPackages rows
  let rows := joinCodebook rows codebook codebookMap
  let rows := deriveBroadCategory rows codebook
  let rows := collapseAppGenre rows codebook
  reviewAnnotationSteps formatThreshold rows customDuration longDataTimeGapThresholds
    longUsageDurationThresholds policy

/-- With no filtered package the relabelling leaves every row alone. -/
theorem relabelFilteredPackages_nil (rows : List Row) : relabelFilteredPackages [] rows = rows := by
  unfold relabelFilteredPackages
  conv_rhs => rw [← List.map_id rows]
  refine List.map_congr_left fun row _ => ?_
  rw [relabelFilteredPackageRow, if_neg List.not_mem_nil, id]

/-- The steps before the engagement columns, row by row. -/
theorem map_annotateBefore (rows : List Row) (filteredPackages : List String)
    (codebook : Option CodebookSchema) (codebookMap : CodebookMap) :
    rows.map (annotateBefore filteredPackages codebook codebookMap) =
      collapseAppGenre (deriveBroadCategory
        (joinCodebook (relabelFilteredPackages filteredPackages rows) codebook codebookMap)
        codebook) codebook := by
  have hrelabel : relabelFilteredPackages filteredPackages rows =
      rows.map fun row => if filteredPackages.isEmpty then row
        else relabelFilteredPackageRow filteredPackages row := by
    cases filteredPackages with
    | nil => simpa using relabelFilteredPackages_nil rows
    | cons first rest => rfl
  rw [hrelabel]
  cases codebook with
  | none => rfl
  | some schema =>
      simp only [joinCodebook, deriveBroadCategory, collapseAppGenre, List.map_map]
      rfl

/-- The steps after the engagement columns, row by row. -/
theorem map_annotateAfter (formatThreshold : Binary64 → String) (rows : List Row)
    (longDataTimeGapThresholds longUsageDurationThresholds : List Binary64)
    (policy : IntervalQualityPolicy) :
    rows.map (annotateAfter (prepareUsageFlags formatThreshold longDataTimeGapThresholds
        longUsageDurationThresholds) policy.blanksFilteredTiming) =
      if policy.blanksFilteredTiming then
        suppressExcludedTiming (applyEpisodeFlags formatThreshold rows longDataTimeGapThresholds
          longUsageDurationThresholds)
      else applyEpisodeFlags formatThreshold rows longDataTimeGapThresholds
        longUsageDurationThresholds := by
  unfold suppressExcludedTiming clearFilteredUsageTiming applyEpisodeFlags markAppUsageFlags
  split
  · case isTrue hblank =>
      rw [List.map_map]
      refine List.map_congr_left fun row _ => ?_
      rw [annotateAfter, if_pos hblank, Function.comp]
  · case isFalse hblank =>
      refine List.map_congr_left fun row _ => ?_
      rw [annotateAfter, if_neg hblank]

theorem walkAppUsageDetailColumns_eq (rows : List Row) (customDuration : Binary64)
    (afterRow : Row → Row) :
    walkAppUsageDetailColumns rows customDuration afterRow =
      (deriveEngagementBasis rows customDuration).map afterRow :=
  map_walk (engagementStep customDuration) afterRow EngagementState.initial rows

theorem walkAppUsageDetailColumnsWithPre_eq (rows : List Row) (customDuration : Binary64)
    (beforeRow afterRow : Row → Row) :
    walkAppUsageDetailColumnsWithPre rows customDuration beforeRow afterRow =
      walkAppUsageDetailColumns (rows.map beforeRow) customDuration afterRow :=
  walk_map (fun state row => ((engagementStep customDuration state row).1,
    afterRow (engagementStep customDuration state row).2)) beforeRow EngagementState.initial rows

theorem reviewAnnotationsOnePass_eq (formatThreshold : Binary64 → String) (rows : List Row)
    (customDuration : Binary64)
    (longDataTimeGapThresholds longUsageDurationThresholds : List Binary64)
    (policy : IntervalQualityPolicy) :
    applyReviewAnnotationsOnePass formatThreshold rows customDuration longDataTimeGapThresholds
        longUsageDurationThresholds policy =
      reviewAnnotationSteps formatThreshold rows customDuration longDataTimeGapThresholds
        longUsageDurationThresholds policy := by
  rw [applyReviewAnnotationsOnePass, walkAppUsageDetailColumns_eq, map_annotateAfter]
  rfl

/-- Both fused walks leave the rows that the separate steps leave, in whatever order the steps'
effects on a row and the walk's reads of earlier rows interleave. -/
theorem fused_annotations_eq_separate_steps (formatThreshold : Binary64 → String)
    (rows : List Row) (filteredPackages : List String) (codebook : Option CodebookSchema)
    (codebookMap : CodebookMap) (customDuration : Binary64)
    (longDataTimeGapThresholds longUsageDurationThresholds : List Binary64)
    (policy : IntervalQualityPolicy) :
    applyStaticReviewAnnotationsFused formatThreshold rows filteredPackages codebook codebookMap
        customDuration longDataTimeGapThresholds longUsageDurationThresholds policy =
      staticReviewAnnotationSteps formatThreshold rows filteredPackages codebook codebookMap
        customDuration longDataTimeGapThresholds longUsageDurationThresholds policy ∧
    applyReviewAnnotationsOnePass formatThreshold rows customDuration longDataTimeGapThresholds
        longUsageDurationThresholds policy =
      reviewAnnotationSteps formatThreshold rows customDuration longDataTimeGapThresholds
        longUsageDurationThresholds policy := by
  refine ⟨?_, reviewAnnotationsOnePass_eq _ _ _ _ _ _⟩
  -- relabelling and codebook run first on every row, and then the walk is the one-pass walk
  rw [applyStaticReviewAnnotationsFused, walkAppUsageDetailColumnsWithPre_eq, map_annotateBefore]
  exact reviewAnnotationsOnePass_eq _ _ _ _ _ _

end Chronicle.Pipeline
