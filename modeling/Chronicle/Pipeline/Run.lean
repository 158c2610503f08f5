import Chronicle.Library.Stages
import Chronicle.Pipeline.Attribution
import Chronicle.Pipeline.Cleaning
import Chronicle.Pipeline.SchoedelRows
import Chronicle.Pipeline.ScreenBounds

/-!
# Runs of the app stages

A run takes the masked event table and the episodes found in it through the stages in the order of
the sequential scheduler. The screen rows, the raw policy rows and the support files are inputs.
-/

namespace Chronicle.Pipeline

open Chronicle.Library Chronicle.Library.Stages Chronicle.Screens

/-- An event table as it enters the app stages: no row carries any timing yet. -/
structure EventTable where
  rows : List Row
  noTiming : ∀ row ∈ rows, row.toEpisodeTiming = {}

/-- What a reconstruction rule reports for an event table. The start of a closed episode is a row
that can open one, which a row labelled as unended cannot. -/
structure Matching (events : EventTable) where
  result : MatcherOutput
  startsOpen : ∀ index ∈ result.stopStartIndices,
    (rowAt events.rows index).interactionType ≠ endOfUsageMissing

/-- The episodes of a run: those of a matcher, or those of the prose reconstruction. -/
inductive Episodes (events : EventTable) where
  | matched (matching : Matching events)
  | prose (episodes : List SchoedelEpisodeEvidence)

/-- The options that the app stages read. -/
structure AppOptions where
  durations : DurationRules := {}
  concurrency : ConcurrencyRules := {}
  excludesLockedScreen : Bool := false
  customAppEngagementDuration : Binary64 := .finite 0
  longDataTimeGapThresholds : List Binary64 := []
  longUsageDurationThresholds : List Binary64 := []
  intervalQuality : IntervalQualityPolicy := .none
  interactionTypesToRemove : List String := []
  interactionTypeRemovalMode : InteractionTypeRemovalMode := .gapPreserving
  filterZeroDurationSessions : Bool := false
  sessionGrouping : SessionGroupingRules := {}
  enableStudyWindowFilter : Bool := false
  enablePersonAttribution : Bool := false
  dayBoundary : DayBoundaryAttribution := .attributeToStartDay
  addNoActivityPlaceholderDays : Bool := false

/-- The support files, parsed; a file that was not given is `none`. -/
structure SupportFiles where
  codebook : Option CodebookSchema := none
  codebookMap : CodebookMap := []
  studyWindows : Option (List StudyWindow) := none
  sharing : Option (List SharingEntry) := none
  survey : String × Int → Option String := fun _ => none

/-- The functions of the libraries that the stages call. -/
structure Environment where
  calendar : Calendar
  formatNumber : Binary64 → String
  searchDigest : List Row → Nat → Nat → String
  intervalOrder : IntervalSort

/-- Everything a run of the app stages reads. -/
structure AppRun where
  environment : Environment
  options : AppOptions
  support : SupportFiles
  events : EventTable
  policyRows : EventTable
  episodes : Episodes events
  filteredPackages : List String
  filteredApplicationLabels : List String
  backgroundApps : List String
  screenRows : List Row
  windowRows : List Row
  excludedParticipants : List String

namespace AppRun

variable (run : AppRun)

/-- The candidate rows and the closed starts among them that are no resumes. -/
def candidates : Except String (List Row × List Nat) :=
  match run.episodes with
  | .matched matching =>
      .ok (materializeCandidateEpisodes run.environment.searchDigest run.events.rows
        matching.result run.filteredPackages, matching.result.selectedNonresumeClosedIndices)
  | .prose episodes => materializeSchoedelCandidateRows run.events.rows episodes

/-- A stage of the table. -/
abbrev RowStage := Stage (List Row) String

/-- The stage `classify_episode_durations`. -/
def classifyStage (selectedNonresumeClosedIndices : List Nat) : RowStage := fun rows =>
  classifyEpisodeDurations rows
    (timingBlankedPackages run.filteredPackages run.backgroundApps) run.options.durations
    selectedNonresumeClosedIndices

/-- The stage `apply_app_inclusion_policy`. -/
def inclusionStage : RowStage := fun rows =>
  .ok (applyAppInclusionPolicy rows run.filteredPackages run.filteredApplicationLabels
    run.backgroundApps)

/-- The screen bound, which the locked-screen option switches on. -/
def screenBoundStage : RowStage := fun rows =>
  .ok (if run.options.excludesLockedScreen then
    boundAppRowsToInteractiveScreen run.environment.intervalOrder rows run.screenRows
  else rows)

/-- From the removal of participants to the layered episodes. -/
def layerStages : List RowStage :=
  [fun rows => .ok (removeParticipants rows run.excludedParticipants),
    fun rows => .ok (orderAppEpisodes rows),
    fun rows => segmentConcurrentUsage rows run.filteredPackages run.backgroundApps
      run.options.concurrency run.options.durations.minimumUsageDuration]

/-- From the codebook to the interval policy. -/
def annotationStages : List RowStage :=
  [fun rows => .ok (joinCodebook rows run.support.codebook run.support.codebookMap),
    fun rows => .ok (deriveBroadCategory rows run.support.codebook),
    fun rows => .ok (collapseAppGenre rows run.support.codebook),
    fun rows => .ok (deriveEngagementBasis rows run.options.customAppEngagementDuration),
    fun rows => .ok (applyEpisodeFlags run.environment.formatNumber rows
      run.options.longDataTimeGapThresholds run.options.longUsageDurationThresholds),
    fun rows => .ok (intervalQualityStep run.environment.calendar run.environment.formatNumber rows
      run.options.intervalQuality)]

/-- From the removal of selected types to the session numbers. -/
def cleaningStages : List RowStage :=
  [fun rows => .ok (removeSelectedInteractionTypes rows run.options.interactionTypesToRemove
      run.options.longDataTimeGapThresholds run.options.interactionTypeRemovalMode),
    fun rows => .ok (removeZeroDurationRows rows run.options.filterZeroDurationSessions),
    fun rows => .ok (assignUsageSessionIds run.environment.formatNumber rows
      run.options.sessionGrouping)]

/-- The study windows of the participants of a table, and of those that only the screen shows. -/
def resolvedWindows (rows : List Row) : List ResolvedParticipantWindow :=
  let windows := run.support.studyWindows.getD []
  let resolved := resolveParticipantWindows rows windows
  resolved ++ (resolveParticipantWindows run.windowRows windows).filter fun entry =>
    resolved.all fun known => known.participantId ≠ entry.participantId

/-- The stage `apply_participant_windows`. -/
def windowStage : RowStage := fun rows =>
  if run.options.enableStudyWindowFilter then
    match run.support.studyWindows with
    | none => .error "Study dates file is required when study-window filtering is enabled"
    | some _ => .ok (applyStudyWindow rows (run.resolvedWindows rows))
  else .ok rows

/-- The stage `classify_person_attribution`. -/
def personStage : RowStage := fun rows =>
  if run.options.enablePersonAttribution then
    match run.support.sharing with
    | none => .error "Device sharing file is required when person attribution is enabled"
    | some sharing => do
        let resolution ← sharingPartition rows sharing
        attributePerson rows resolution run.support.survey
  else .ok rows

/-- The stage `divide_sessions_at_day_boundary`. -/
def dayBoundaryStage : RowStage := fun rows =>
  .ok (splitSessionsAtLocalMidnight run.environment.calendar rows run.options.dayBoundary)

/-- The stage `synthesize_placeholder_rows`; `windows` are those resolved before the filter. -/
def placeholderStage (windows : List ResolvedParticipantWindow) : RowStage := fun rows =>
  .ok (if run.options.addNoActivityPlaceholderDays then
    addPlaceholderRowsForSamples run.environment.calendar rows
      (placeholderDaySamples run.policyRows.rows)
      (if run.options.enableStudyWindowFilter then some windows else none)
  else rows)

/-- The window stage and those after it, applied to the cleaned table. -/
def attributionStages (cleaned : List Row) : List RowStage :=
  [run.windowStage, run.personStage, run.dayBoundaryStage,
    run.placeholderStage (run.resolvedWindows cleaned)]

/-- The stages before the screen bound. -/
def stagesBeforeBound (selectedNonresumeClosedIndices : List Nat) : List RowStage :=
  [run.classifyStage selectedNonresumeClosedIndices, run.inclusionStage]

/-- The stages after the screen bound, up to the cleaned table. -/
def stagesAfterBound : List RowStage :=
  run.layerStages ++ run.annotationStages ++ run.cleaningStages

/-- The table that the screen bound is applied to, if the run gets there. -/
def includedRows : Except String (List Row) := do
  let (rows, selected) ← run.candidates
  finish (run.stagesBeforeBound selected) rows

/-- The cleaned table, which the credit channel and the derived channels read. -/
def cleanedRows : Except String (List Row) := do
  let rows ← run.includedRows
  finish (run.screenBoundStage :: run.stagesAfterBound) rows

/-- The tables that the run passes through from the candidates on, up to its end or its first
failure. -/
inductive Reaches : List Row → Prop
  | classification {candidates selected rows} : run.candidates = .ok (candidates, selected) →
      rows ∈ reached (run.stagesBeforeBound selected) candidates → Reaches rows
  | cleaning {included rows} : run.includedRows = .ok included →
      rows ∈ reached (run.screenBoundStage :: run.stagesAfterBound) included → Reaches rows
  | attribution {cleaned rows} : run.cleanedRows = .ok cleaned →
      rows ∈ reached (run.attributionStages cleaned) cleaned → Reaches rows

end AppRun

end Chronicle.Pipeline
