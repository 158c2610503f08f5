import Chronicle.Checkpoint.RowData
import Chronicle.Output.Timestamps
import Chronicle.MaximumDuration.Request
import Chronicle.Persistence.ScreenBases
import Chronicle.Pipeline.Cleaning

/-!
# The columns of the app table

The header is pushed column by column and spliced where a selection adds columns; the writer of rows
walks a chain of tests of its own. Both follow one list of columns, in which every name is one field
of a row.
-/

namespace Chronicle.Output

open Chronicle.Checkpoint Chronicle.Library Chronicle.Library.Bytes Chronicle.Library.Rfc4180
open Chronicle.Persistence Chronicle.Pipeline Chronicle.Screens

/-! ## Options -/

/-- `CodebookSchema`: the source and the output name of each column. -/
structure CodebookSchema where
  columns : List (String × String)
deriving DecidableEq, Repr

/-- `output_columns` -/
def CodebookSchema.outputColumns (schema : CodebookSchema) : List String :=
  schema.columns.map Prod.snd

/-- What the writer reads of `PipelineV2Options`; the stage is that of
`maximum_duration_row_stage`. -/
structure AppCsvOptions where
  studyName : String
  timezone : String
  datetimeOfPreprocessing : String
  useAppCodebook : Bool
  modelConcurrentUsage : Bool
  useBackgroundAppsFile : Bool
  customAppEngagementDuration : F64
  includeAppUsageEndReason : Bool
  sessionGroupingPolicy : SessionGroupingPolicy
  usageSessionMode : UsageSessionMode
  episodeReconstructionStrategy : MaximumDuration.EpisodeReconstructionStrategy
  microUseClassificationPolicy : MicroUseClassificationPolicy
  minimumDurationComparator : MinimumDurationComparator
  minimumDurationDisposition : MinimumDurationDisposition
  maximumDurationRowStage : MaximumDurationRowStage

/-- `f64::NAN` -/
def nan : F64 := 0x7ff8000000000000

/-- What comes from libraries: the zones of a name and the times in them, and the texts of
numbers. -/
structure Texts where
  Zone : Type
  utc : Zone
  zone : String → Option Zone
  tsToLocal : Int64 → Zone → LocalTime
  normalizeFloatString : F64 → String
  jsNumberToString : F64 → String
  ofNanoseconds : Int64 → F64
  jsNumberToString_ne_empty : ∀ value, jsNumberToString value ≠ ""
  jsNumberToString_nan : jsNumberToString nan = "NaN"

namespace AppCsvOptions

/-- `schoedel_is_active` -/
def schoedelIsActive (opts : AppCsvOptions) : Bool :=
  (opts.usageSessionMode = .appUsage || opts.usageSessionMode = .appAndScreenUsage) &&
    opts.episodeReconstructionStrategy = .schoedel2026AppWithinScreenProseV1

def usageLayerActive (opts : AppCsvOptions) : Bool :=
  opts.modelConcurrentUsage || opts.useBackgroundAppsFile

def includeUsageSessionId (opts : AppCsvOptions) : Bool := opts.sessionGroupingPolicy ≠ .none

def microUseActive (opts : AppCsvOptions) : Bool := opts.microUseClassificationPolicy ≠ .none

/-- `b04_columns` -/
def b04Columns (opts : AppCsvOptions) : Bool :=
  opts.minimumDurationComparator ≠ .strictLt ||
    opts.minimumDurationDisposition ≠ .chronicleBlankKeepRow

/-- `generic_stage_active` of the row stage. -/
def maximumDurationColumns (opts : AppCsvOptions) : Bool :=
  opts.maximumDurationRowStage.thresholdNs.isSome

end AppCsvOptions

/-! ## The header -/

/-- `declared_app_output_columns`, with the text of `format_custom_dur`. -/
def declaredAppOutputColumns (codebook : Option CodebookSchema) (includeCodebookAliases
    usageLayerActive : Bool) (customDur : String) (includeAppUsageEndReason
    includeUsageSessionId : Bool) : List String :=
  let cols := ["study_id", "study_name", "participant_id", "possible_device_model", "username",
    "event_timestamp", "date", "timezone", "app_package_name", "application_label"]
  let cols := match codebook with
    | none => cols
    | some codebook =>
        let cols := cols ++ ["genreId_scraped"]
        let cols := if includeCodebookAliases then cols ++ ["broad_app_category"] else cols
        cols ++ codebook.outputColumns
  let cols := cols ++ ["interaction_type", "start_timestamp", "stop_timestamp"]
  let cols := if includeAppUsageEndReason then cols ++ ["app_usage_end_reason"] else cols
  let cols := if includeUsageSessionId then cols ++ ["usage_session_id"] else cols
  let cols := cols ++ ["duration_seconds", "duration_minutes", "any_app_usage_flags",
    "data_time_gap_hours", "day", "weekdayMF", "weekdayMTh", "weekdaySuTh", "hour", "quarter",
    "valid_app_new_engage_30s", "valid_app_new_engage_custom_" ++ customDur ++ "s",
    "valid_app_switched_app", "valid_app_usage_time_gap_hours", "any_app_new_engage_30s",
    "any_app_new_engage_custom_" ++ customDur ++ "s", "any_app_switched_app",
    "any_app_usage_time_gap_hours", "preprocessor_version", "datetime_of_preprocessing"]
  if usageLayerActive then cols ++ ["usage_layer"] else cols

/-- A `splice` after the first column of a name, or at the end. -/
def insertAfter (name : String) (inserted : List String) (columns : List String) : List String :=
  let insertAt := (columns.findIdx? (· == name)).elim columns.length (· + 1)
  columns.take insertAt ++ inserted ++ columns.drop insertAt

/-- `insert_conditional_app_output_columns` -/
def insertConditionalAppOutputColumns (columns : List String) (schoedelActive microUseActive
    b04Columns b06GenericActive : Bool) : List String :=
  let columns :=
    if schoedelActive then
      insertAfter "stop_timestamp" ["screen_interval_id", "schoedel_completion"] columns
    else columns
  let foundational := if microUseActive then ["micro_use_classification"] else []
  let foundational :=
    if b04Columns then
      foundational ++ ["raw_episode_duration_seconds", "minimum_duration_qualified",
        "minimum_duration_aggregate_eligible"]
    else foundational
  let foundational :=
    if b06GenericActive then
      (if !b04Columns then foundational ++ ["raw_episode_duration_seconds"] else foundational) ++
        ["maximum_duration_qualified", "maximum_duration_aggregate_eligible",
          "maximum_duration_trimmed_seconds", "effective_endpoint_reason"]
    else foundational
  insertAfter "duration_minutes" foundational columns

variable (texts : Texts)

/-- `build_app_columns` -/
def buildAppColumns (opts : AppCsvOptions) (includeCodebookAliases : Bool)
    (codebook : Option CodebookSchema) : List String :=
  insertConditionalAppOutputColumns
    (declaredAppOutputColumns codebook includeCodebookAliases opts.usageLayerActive
      (texts.jsNumberToString opts.customAppEngagementDuration) opts.includeAppUsageEndReason
      opts.includeUsageSessionId)
    opts.schoedelIsActive opts.microUseActive opts.b04Columns opts.maximumDurationColumns

/-- `split_once` -/
def splitOnce (marker : List Char) : List Char → Option (List Char × List Char)
  | [] => if marker.isEmpty then some ([], []) else none
  | c :: rest =>
      if marker.isPrefixOf (c :: rest) then some ([], (c :: rest).drop marker.length)
      else (splitOnce marker rest).map fun parts => (c :: parts.1, parts.2)

/-- The header with every column-adding option on. -/
def everyAppColumn (customDur : String) : List String :=
  insertConditionalAppOutputColumns
    (declaredAppOutputColumns (some ⟨[]⟩) true true customDur true true) true true true true

/-- A column of the full header is the column of this name, whatever duration is in it. -/
def matchesColumn (marker : String) (name column : String) : Bool :=
  match splitOnce marker.toList column.toList with
  | some (before, after) =>
      decide (name.utf8ByteSize >
        (String.ofList before).utf8ByteSize + (String.ofList after).utf8ByteSize) &&
        before.isPrefixOf name.toList && after.isSuffixOf name.toList
  | none => column == name

/-- `is_kernel_app_output_column` -/
def isKernelAppOutputColumn (name : String) : Bool :=
  (everyAppColumn (texts.jsNumberToString nan)).any
    (matchesColumn (texts.jsNumberToString nan) name)

/-- `app_csv_codebook` -/
def appCsvCodebook (opts : AppCsvOptions) (codebook : Option CodebookSchema) :
    Except String (Option CodebookSchema) :=
  match opts.useAppCodebook, codebook with
  | true, none => .error "use_app_codebook requires an app_codebook_schema_file"
  | true, schema => .ok schema
  | false, _ => .ok none

/-! ## The rows -/

/-- `out` and `first`. -/
structure CsvLine where
  out : List UInt8
  first : Bool

/-- `begin_csv_field` -/
def beginCsvField (line : CsvLine) : CsvLine :=
  ⟨if line.first then line.out else line.out ++ [ascii ','], false⟩

/-- `begin_csv_field`, and `append_csv_field` of the bytes of a field. -/
def emitField (line : CsvLine) (field : List UInt8) : CsvLine :=
  ⟨writeCsvField (beginCsvField line).out field, false⟩

/-- `begin_csv_field`, and bytes as they are. -/
def emitRaw (line : CsvLine) (bytes : List UInt8) : CsvLine :=
  ⟨(beginCsvField line).out ++ bytes, false⟩

/-- `emit` -/
def emit (line : CsvLine) (text : String) : CsvLine := emitField line (utf8 text)

/-- `emit_event_timestamp` -/
def emitEventTimestamp (line : CsvLine) (ns : Int64) (zone : texts.Zone) : CsvLine :=
  ⟨writeEventTimestamp (beginCsvField line).out (texts.tsToLocal ns zone), false⟩

/-- `emit_session_timestamp` -/
def emitSessionTimestamp (line : CsvLine) (ns : Option Int64) (zone : texts.Zone) : CsvLine :=
  match ns with
  | none => beginCsvField line
  | some ns => ⟨writeSessionTimestamp (beginCsvField line).out (texts.tsToLocal ns zone), false⟩

/-- `value == 0.0` -/
def isZero (value : F64) : Bool := value = 0 || value = 0x8000000000000000

/-- `emit_csv_float` -/
def emitCsvFloat (line : CsvLine) (value : F64) : CsvLine :=
  if isZero value then emitRaw line (utf8 "0.0")
  else emit line (texts.normalizeFloatString value)

/-- `emit_csv_optional_float` -/
def emitCsvOptionalFloat (line : CsvLine) (value : Option F64) : CsvLine :=
  match value with
  | none => beginCsvField line
  | some value => emitCsvFloat texts line value

/-- `emit_csv_u8`, with the decimals of `SMALL_U8_DECIMALS` below 24. -/
def emitCsvU8 (line : CsvLine) (value : UInt8) : CsvLine :=
  if value.toNat < 24 then emitRaw line (utf8 (toString value.toNat))
  else emit line (toString value.toNat)

/-- `emit_csv_i32` -/
def emitCsvI32 (line : CsvLine) (value : Int32) : CsvLine :=
  if value = 0 then emitRaw line (utf8 "0")
  else if value = 1 then emitRaw line (utf8 "1")
  else emit line (toString value.toInt)

/-- `emit_csv_optional_i64` -/
def emitCsvOptionalI64 (line : CsvLine) (value : Option Int64) : CsvLine :=
  match value with
  | none => beginCsvField line
  | some value => emit line (toString value.toInt)

/-- A text of a row that may be absent. -/
def optionalText (text : Option SharedString) : String := (text.map SharedString.text).getD ""

/-- A qualification, as it is written. -/
def boolText (value : Bool) : String := if value then "true" else "false"

/-- `MicroUseClassification::canonical_id` -/
def microUseId : MicroUseClassification → String
  | .microUse => "micro_use"
  | .notMicroUse => "not_micro_use"
  | .notClassifiable => "not_classifiable"

/-- `MaximumDurationEffectiveEndpointReason::canonical_id` -/
def endpointReasonId : MaximumDurationEffectiveEndpointReason → String
  | .maximumDurationTruncationBoundary => "maximum_duration_truncation_boundary"

/-- `PREPROCESSOR_VERSION` -/
def preprocessorVersion : String := "1.0.0"

/-- The text of a codebook field: none if the join cleared it, and `true` or `false` in lower
case. -/
def codebookText (row : RowData) (i : Nat) : String :=
  let val :=
    if row.codebookGenreFieldsCleared.any fun cleared => cleared.contains i then ""
    else optionalText (row.codebookFields.toList[i]?.join)
  if val = "True" then "true" else if val = "False" then "false" else val

/-- The zone that the times of a row are written in. -/
def rowZone (opts : AppCsvOptions) (row : RowData) : texts.Zone :=
  let tz := (texts.zone opts.timezone).getD texts.utc
  if row.timezone.text = opts.timezone then tz else (texts.zone row.timezone.text).getD tz

section Rows

variable (opts : AppCsvOptions) (zone : texts.Zone) (row : RowData) (line : CsvLine)

/-- The fields up to `application_label`. -/
def emitIdentity : CsvLine :=
  let line := emit line row.studyId.text
  let line := emit line opts.studyName
  let line := emit line row.participantId.text
  let line := emit line row.possibleDeviceModel.text
  let line := emit line row.username.text
  let line := emitEventTimestamp texts line row.eventTimestampNs zone
  let line := emit line row.date.text
  let line := emit line row.timezone.text
  let line := emit line row.appPackageName.text
  let line := emit line row.applicationLabel.text
  line

/-- The fields of a codebook. -/
def emitCodebook (includeAliases : Bool) (codebook : Option CodebookSchema) : CsvLine :=
  let line := if codebook.isSome then emit line (optionalText row.genreIdScraped) else line
  let line :=
    if codebook.isSome && includeAliases then emit line (optionalText row.broadAppCategory)
    else line
  match codebook with
  | none => line
  | some codebook =>
      (List.range codebook.columns.length).foldl (fun line i => emit line (codebookText row i)) line

/-- The fields from `interaction_type` to `duration_minutes`. -/
def emitInterval : CsvLine :=
  let line := emit line row.interactionType.text
  let line := emitSessionTimestamp texts line row.episodeTiming.startTimestampNs zone
  let line := emitSessionTimestamp texts line row.episodeTiming.stopTimestampNs zone
  let line :=
    if opts.schoedelIsActive then
      let line := emit line (optionalText row.screenIntervalId)
      let line := emit line ((row.schoedelCompletion.map SchoedelCompletion.canonicalId).getD "")
      line
    else line
  let line :=
    if opts.includeAppUsageEndReason then
      let line := emit line (optionalText row.appUsageEndReason)
      line
    else line
  let line :=
    if opts.includeUsageSessionId then
      let line := emitCsvOptionalI64 line row.usageSessionId
      line
    else line
  let line := emitCsvOptionalFloat texts line (row.episodeTiming.durationSeconds)
  let line := emitCsvOptionalFloat texts line (row.episodeTiming.durationMinutes)
  line

/-- The fields of the research axes. -/
def emitFoundational : CsvLine :=
  let line :=
    if opts.microUseActive then
      let line := emit line ((row.microUseClassification.map microUseId).getD "not_applicable")
      line
    else line
  let line :=
    if opts.b04Columns then
      let line := emitCsvOptionalFloat texts line
          (row.episodeTiming.rawEpisodeDurationNs.map texts.ofNanoseconds)
      let line := emit line ((row.episodeTiming.minimumDurationQualified.map boolText).getD "")
      let line := emit line (if row.episodeTiming.rawEpisodeStartTimestampNs.isSome then
          boolText row.episodeTiming.minimumDurationAggregateEligible else "")
      line
    else line
  if opts.maximumDurationColumns then
    let line :=
      if !opts.b04Columns then
        emitCsvOptionalFloat texts line
          (row.episodeTiming.rawEpisodeDurationNs.map texts.ofNanoseconds)
      else line
    let line := emit line ((row.episodeTiming.maximumDurationQualified.map boolText).getD "")
    let line := emit line (if row.episodeTiming.maximumDurationQualified.isSome then
        boolText row.episodeTiming.maximumDurationAggregateEligible else "")
    let line := emitCsvOptionalFloat texts line
      (row.episodeTiming.maximumDurationTrimmedNs.map texts.ofNanoseconds)
    let line := emit line ((row.episodeTiming.effectiveEndpointReason.map endpointReasonId).getD "")
    line
  else line

/-- The fields from `any_app_usage_flags` on. -/
def emitFlags : CsvLine :=
  let line := emit line row.anyAppUsageFlags.text
  let line := emitCsvFloat texts line row.dataTimeGapHours
  let line := emitCsvU8 line row.day
  let line := emitCsvU8 line row.weekdayMf
  let line := emitCsvU8 line row.weekdayMth
  let line := emitCsvU8 line row.weekdaySuTh
  let line := emitCsvU8 line row.hour
  let line := emitCsvU8 line row.quarter
  let line := emitCsvI32 line row.validAppNewEngage30s
  let line := emitCsvI32 line row.validAppNewEngageCustom
  let line := emitCsvI32 line row.validAppSwitchedApp
  let line := emitCsvFloat texts line row.validAppUsageTimeGapHours
  let line := emitCsvI32 line row.anyAppNewEngage30s
  let line := emitCsvI32 line row.anyAppNewEngageCustom
  let line := emitCsvI32 line row.anyAppSwitchedApp
  let line := emitCsvFloat texts line row.anyAppUsageTimeGapHours
  let line := emit line preprocessorVersion
  let line := emit line opts.datetimeOfPreprocessing
  if opts.usageLayerActive then emit line (optionalText row.usageLayer) else line

end Rows

/-- The line of a row. -/
def appRowLine (opts : AppCsvOptions) (includeAliases : Bool) (codebook : Option CodebookSchema)
    (row : RowData) : List UInt8 :=
  let zone := rowZone texts opts row
  let line := emitIdentity texts opts zone row ⟨[], true⟩
  let line := emitCodebook row line includeAliases codebook
  let line := emitInterval texts opts zone row line
  let line := emitFoundational texts opts row line
  let line := emitFlags texts opts row line
  line.out ++ [ascii '\n']

/-- `write_app_csv_to`, into memory. -/
def writeAppCsvTo (opts : AppCsvOptions) (includeAliases : Bool) (codebook : Option CodebookSchema)
    (rows : List RowData) : Except String (List UInt8) := do
  let codebook ← appCsvCodebook opts codebook
  let header := (buildAppColumns texts opts includeAliases codebook).foldl emit ⟨[], true⟩
  .ok (rows.foldl (fun sink row => sink ++ appRowLine texts opts includeAliases codebook row)
    (header.out ++ [ascii '\n']))

/-! ## The columns -/

/-- The columns whose names are fixed. -/
inductive FixedColumn where
  | studyId
  | studyName
  | participantId
  | possibleDeviceModel
  | username
  | eventTimestamp
  | date
  | timezone
  | appPackageName
  | applicationLabel
  | genreIdScraped
  | broadAppCategory
  | interactionType
  | startTimestamp
  | stopTimestamp
  | screenIntervalId
  | schoedelCompletion
  | appUsageEndReason
  | usageSessionId
  | durationSeconds
  | durationMinutes
  | microUseClassification
  | rawEpisodeDurationSeconds
  | minimumDurationQualified
  | minimumDurationAggregateEligible
  | maximumDurationQualified
  | maximumDurationAggregateEligible
  | maximumDurationTrimmedSeconds
  | effectiveEndpointReason
  | anyAppUsageFlags
  | dataTimeGapHours
  | day
  | weekdayMf
  | weekdayMth
  | weekdaySuTh
  | hour
  | quarter
  | validAppNewEngage30s
  | validAppSwitchedApp
  | validAppUsageTimeGapHours
  | anyAppNewEngage30s
  | anyAppSwitchedApp
  | anyAppUsageTimeGapHours
  | preprocessorVersion
  | datetimeOfPreprocessing
  | usageLayer
deriving DecidableEq, Repr

/-- A column: one of a fixed name, one of the two with a duration in the name, or a codebook's. -/
inductive AppColumn where
  | fixed (column : FixedColumn)
  | validAppNewEngageCustom
  | anyAppNewEngageCustom
  | codebook (index : Nat)
deriving DecidableEq, Repr

def FixedColumn.all : List FixedColumn :=
  [.studyId, .studyName, .participantId, .possibleDeviceModel, .username, .eventTimestamp, .date,
    .timezone, .appPackageName, .applicationLabel, .genreIdScraped, .broadAppCategory,
    .interactionType, .startTimestamp, .stopTimestamp, .screenIntervalId, .schoedelCompletion,
    .appUsageEndReason, .usageSessionId, .durationSeconds, .durationMinutes,
    .microUseClassification, .rawEpisodeDurationSeconds, .minimumDurationQualified,
    .minimumDurationAggregateEligible, .maximumDurationQualified,
    .maximumDurationAggregateEligible, .maximumDurationTrimmedSeconds, .effectiveEndpointReason,
    .anyAppUsageFlags, .dataTimeGapHours, .day, .weekdayMf, .weekdayMth, .weekdaySuTh, .hour,
    .quarter, .validAppNewEngage30s, .validAppSwitchedApp, .validAppUsageTimeGapHours,
    .anyAppNewEngage30s, .anyAppSwitchedApp, .anyAppUsageTimeGapHours, .preprocessorVersion,
    .datetimeOfPreprocessing, .usageLayer]

def FixedColumn.name : FixedColumn → String
  | .studyId => "study_id"
  | .studyName => "study_name"
  | .participantId => "participant_id"
  | .possibleDeviceModel => "possible_device_model"
  | .username => "username"
  | .eventTimestamp => "event_timestamp"
  | .date => "date"
  | .timezone => "timezone"
  | .appPackageName => "app_package_name"
  | .applicationLabel => "application_label"
  | .genreIdScraped => "genreId_scraped"
  | .broadAppCategory => "broad_app_category"
  | .interactionType => "interaction_type"
  | .startTimestamp => "start_timestamp"
  | .stopTimestamp => "stop_timestamp"
  | .screenIntervalId => "screen_interval_id"
  | .schoedelCompletion => "schoedel_completion"
  | .appUsageEndReason => "app_usage_end_reason"
  | .usageSessionId => "usage_session_id"
  | .durationSeconds => "duration_seconds"
  | .durationMinutes => "duration_minutes"
  | .microUseClassification => "micro_use_classification"
  | .rawEpisodeDurationSeconds => "raw_episode_duration_seconds"
  | .minimumDurationQualified => "minimum_duration_qualified"
  | .minimumDurationAggregateEligible => "minimum_duration_aggregate_eligible"
  | .maximumDurationQualified => "maximum_duration_qualified"
  | .maximumDurationAggregateEligible => "maximum_duration_aggregate_eligible"
  | .maximumDurationTrimmedSeconds => "maximum_duration_trimmed_seconds"
  | .effectiveEndpointReason => "effective_endpoint_reason"
  | .anyAppUsageFlags => "any_app_usage_flags"
  | .dataTimeGapHours => "data_time_gap_hours"
  | .day => "day"
  | .weekdayMf => "weekdayMF"
  | .weekdayMth => "weekdayMTh"
  | .weekdaySuTh => "weekdaySuTh"
  | .hour => "hour"
  | .quarter => "quarter"
  | .validAppNewEngage30s => "valid_app_new_engage_30s"
  | .validAppSwitchedApp => "valid_app_switched_app"
  | .validAppUsageTimeGapHours => "valid_app_usage_time_gap_hours"
  | .anyAppNewEngage30s => "any_app_new_engage_30s"
  | .anyAppSwitchedApp => "any_app_switched_app"
  | .anyAppUsageTimeGapHours => "any_app_usage_time_gap_hours"
  | .preprocessorVersion => "preprocessor_version"
  | .datetimeOfPreprocessing => "datetime_of_preprocessing"
  | .usageLayer => "usage_layer"

/-- The name of a column. -/
def AppColumn.name (customDur : String) (codebook : Option CodebookSchema) : AppColumn → String
  | .fixed column => column.name
  | .validAppNewEngageCustom => "valid_app_new_engage_custom_" ++ customDur ++ "s"
  | .anyAppNewEngageCustom => "any_app_new_engage_custom_" ++ customDur ++ "s"
  | .codebook index => (codebook.elim [] CodebookSchema.outputColumns).getD index ""

/-- A number as it is written. -/
def floatText (value : F64) : List UInt8 :=
  if isZero value then utf8 "0.0" else utf8 (texts.normalizeFloatString value)

/-- What the name of a fixed column says: one field of the row, or one value of the request. -/
def FixedColumn.value (opts : AppCsvOptions) (zone : texts.Zone) (row : RowData) :
    FixedColumn → List UInt8
  | .studyId =>
      utf8 row.studyId.text
  | .studyName =>
      utf8 opts.studyName
  | .participantId =>
      utf8 row.participantId.text
  | .possibleDeviceModel =>
      utf8 row.possibleDeviceModel.text
  | .username =>
      utf8 row.username.text
  | .eventTimestamp =>
      writeEventTimestamp [] (texts.tsToLocal row.eventTimestampNs zone)
  | .date =>
      utf8 row.date.text
  | .timezone =>
      utf8 row.timezone.text
  | .appPackageName =>
      utf8 row.appPackageName.text
  | .applicationLabel =>
      utf8 row.applicationLabel.text
  | .genreIdScraped =>
      utf8 (optionalText row.genreIdScraped)
  | .broadAppCategory =>
      utf8 (optionalText row.broadAppCategory)
  | .interactionType =>
      utf8 row.interactionType.text
  | .startTimestamp =>
      row.episodeTiming.startTimestampNs.elim [] fun ns =>
        writeSessionTimestamp [] (texts.tsToLocal ns zone)
  | .stopTimestamp =>
      row.episodeTiming.stopTimestampNs.elim [] fun ns =>
        writeSessionTimestamp [] (texts.tsToLocal ns zone)
  | .screenIntervalId =>
      utf8 (optionalText row.screenIntervalId)
  | .schoedelCompletion =>
      utf8 ((row.schoedelCompletion.map SchoedelCompletion.canonicalId).getD "")
  | .appUsageEndReason =>
      utf8 (optionalText row.appUsageEndReason)
  | .usageSessionId =>
      row.usageSessionId.elim [] fun id => utf8 (toString id.toInt)
  | .durationSeconds =>
      (row.episodeTiming.durationSeconds).elim [] (floatText texts)
  | .durationMinutes =>
      (row.episodeTiming.durationMinutes).elim [] (floatText texts)
  | .microUseClassification =>
      utf8 ((row.microUseClassification.map microUseId).getD "not_applicable")
  | .rawEpisodeDurationSeconds =>
      (row.episodeTiming.rawEpisodeDurationNs.map texts.ofNanoseconds).elim [] (floatText texts)
  | .minimumDurationQualified =>
      utf8 ((row.episodeTiming.minimumDurationQualified.map boolText).getD "")
  | .minimumDurationAggregateEligible =>
      utf8 (if row.episodeTiming.rawEpisodeStartTimestampNs.isSome then
        boolText row.episodeTiming.minimumDurationAggregateEligible else "")
  | .maximumDurationQualified =>
      utf8 ((row.episodeTiming.maximumDurationQualified.map boolText).getD "")
  | .maximumDurationAggregateEligible =>
      utf8 (if row.episodeTiming.maximumDurationQualified.isSome then
        boolText row.episodeTiming.maximumDurationAggregateEligible else "")
  | .maximumDurationTrimmedSeconds =>
      (row.episodeTiming.maximumDurationTrimmedNs.map texts.ofNanoseconds).elim [] (floatText texts)
  | .effectiveEndpointReason =>
      utf8 ((row.episodeTiming.effectiveEndpointReason.map endpointReasonId).getD "")
  | .anyAppUsageFlags =>
      utf8 row.anyAppUsageFlags.text
  | .dataTimeGapHours =>
      floatText texts row.dataTimeGapHours
  | .day =>
      utf8 (toString row.day.toNat)
  | .weekdayMf =>
      utf8 (toString row.weekdayMf.toNat)
  | .weekdayMth =>
      utf8 (toString row.weekdayMth.toNat)
  | .weekdaySuTh =>
      utf8 (toString row.weekdaySuTh.toNat)
  | .hour =>
      utf8 (toString row.hour.toNat)
  | .quarter =>
      utf8 (toString row.quarter.toNat)
  | .validAppNewEngage30s =>
      utf8 (toString row.validAppNewEngage30s.toInt)
  | .validAppSwitchedApp =>
      utf8 (toString row.validAppSwitchedApp.toInt)
  | .validAppUsageTimeGapHours =>
      floatText texts row.validAppUsageTimeGapHours
  | .anyAppNewEngage30s =>
      utf8 (toString row.anyAppNewEngage30s.toInt)
  | .anyAppSwitchedApp =>
      utf8 (toString row.anyAppSwitchedApp.toInt)
  | .anyAppUsageTimeGapHours =>
      floatText texts row.anyAppUsageTimeGapHours
  | .preprocessorVersion =>
      utf8 Output.preprocessorVersion
  | .datetimeOfPreprocessing =>
      utf8 opts.datetimeOfPreprocessing
  | .usageLayer =>
      utf8 (optionalText row.usageLayer)

/-- What the name of a column says. -/
def AppColumn.value (opts : AppCsvOptions) (zone : texts.Zone) (row : RowData) :
    AppColumn → List UInt8
  | .fixed column => column.value texts opts zone row
  | .validAppNewEngageCustom => utf8 (toString row.validAppNewEngageCustom.toInt)
  | .anyAppNewEngageCustom => utf8 (toString row.anyAppNewEngageCustom.toInt)
  | .codebook index => utf8 (codebookText row index)

def identityColumns : List FixedColumn :=
  [.studyId, .studyName, .participantId, .possibleDeviceModel, .username, .eventTimestamp, .date,
    .timezone, .appPackageName, .applicationLabel]

def codebookColumns (includeAliases : Bool) : Option CodebookSchema → List AppColumn
  | none => []
  | some codebook =>
      .fixed .genreIdScraped :: ((if includeAliases then [.fixed .broadAppCategory] else []) ++
        (List.range codebook.columns.length).map .codebook)

def intervalColumns (opts : AppCsvOptions) : List FixedColumn :=
  [.interactionType, .startTimestamp, .stopTimestamp] ++
    (if opts.schoedelIsActive then [.screenIntervalId, .schoedelCompletion] else []) ++
    (if opts.includeAppUsageEndReason then [.appUsageEndReason] else []) ++
    (if opts.includeUsageSessionId then [.usageSessionId] else []) ++
    [.durationSeconds, .durationMinutes]

def foundationalColumns (opts : AppCsvOptions) : List FixedColumn :=
  (if opts.microUseActive then [.microUseClassification] else []) ++
    (if opts.b04Columns then
      [.rawEpisodeDurationSeconds, .minimumDurationQualified, .minimumDurationAggregateEligible]
    else []) ++
    if opts.maximumDurationColumns then
      (if !opts.b04Columns then [.rawEpisodeDurationSeconds] else []) ++
        [.maximumDurationQualified, .maximumDurationAggregateEligible,
          .maximumDurationTrimmedSeconds, .effectiveEndpointReason]
    else []

def flagColumns (opts : AppCsvOptions) : List AppColumn :=
  [.fixed .anyAppUsageFlags, .fixed .dataTimeGapHours, .fixed .day, .fixed .weekdayMf,
    .fixed .weekdayMth, .fixed .weekdaySuTh, .fixed .hour, .fixed .quarter,
    .fixed .validAppNewEngage30s, .validAppNewEngageCustom, .fixed .validAppSwitchedApp,
    .fixed .validAppUsageTimeGapHours, .fixed .anyAppNewEngage30s, .anyAppNewEngageCustom,
    .fixed .anyAppSwitchedApp, .fixed .anyAppUsageTimeGapHours, .fixed .preprocessorVersion,
    .fixed .datetimeOfPreprocessing] ++
    if opts.usageLayerActive then [.fixed .usageLayer] else []

/-- The columns of a table, in their order. -/
def appColumns (opts : AppCsvOptions) (includeAliases : Bool) (codebook : Option CodebookSchema) :
    List AppColumn :=
  identityColumns.map .fixed ++ codebookColumns includeAliases codebook ++
    (intervalColumns opts ++ foundationalColumns opts).map .fixed ++ flagColumns opts

/-! ## The chain of a row -/

section Chain

variable {texts : Texts} {opts : AppCsvOptions} {zone : texts.Zone} {row : RowData}

theorem emitRaw_eq (line : CsvLine) {bytes : List UInt8} (h : needsCsvQuoting bytes = false) :
    emitRaw line bytes = emitField line bytes := by
  rw [emitField, writeCsvField, h]
  rfl

theorem emitNothing_eq (line : CsvLine) : beginCsvField line = emitField line [] := by
  have hraw : emitRaw line [] = beginCsvField line := by
    rw [emitRaw, List.append_nil]
    rfl
  rw [← hraw]
  exact emitRaw_eq line rfl

theorem emitEventTimestamp_eq (line : CsvLine) (ns : Int64) :
    emitEventTimestamp texts line ns zone =
      emitField line (writeEventTimestamp [] (texts.tsToLocal ns zone)) := by
  obtain ⟨hplain, hwrite⟩ :=
    (writesPlain_writeEventTimestamp (texts.tsToLocal ns zone)).write_eq (beginCsvField line).out
  rw [emitEventTimestamp, hwrite]
  exact emitRaw_eq line hplain

theorem emitSessionTimestamp_eq (line : CsvLine) (ns : Option Int64) :
    emitSessionTimestamp texts line ns zone =
      emitField line (ns.elim [] fun ns =>
        writeSessionTimestamp [] (texts.tsToLocal ns zone)) := by
  cases ns with
  | none => exact emitNothing_eq line
  | some ns =>
      obtain ⟨hplain, hwrite⟩ := (writesPlain_writeSessionTimestamp
        (texts.tsToLocal ns zone)).write_eq (beginCsvField line).out
      rw [emitSessionTimestamp, hwrite]
      exact emitRaw_eq line hplain

theorem emitCsvFloat_eq (line : CsvLine) (value : F64) :
    emitCsvFloat texts line value = emitField line (floatText texts value) := by
  unfold emitCsvFloat floatText
  split
  · exact emitRaw_eq line (by decide)
  · rfl

theorem emitCsvOptionalFloat_eq (line : CsvLine) (value : Option F64) :
    emitCsvOptionalFloat texts line value =
      emitField line (value.elim [] (floatText texts)) := by
  cases value with
  | none => exact emitNothing_eq line
  | some value => exact emitCsvFloat_eq line value

theorem emitCsvU8_eq (line : CsvLine) (value : UInt8) :
    emitCsvU8 line value = emitField line (utf8 (toString value.toNat)) := by
  have hplain : ∀ n < 24, needsCsvQuoting (utf8 (toString n)) = false := by decide
  unfold emitCsvU8
  split
  · rename_i hsmall
    exact emitRaw_eq line (hplain _ hsmall)
  · rfl

theorem emitCsvI32_eq (line : CsvLine) (value : Int32) :
    emitCsvI32 line value = emitField line (utf8 (toString value.toInt)) := by
  unfold emitCsvI32
  split
  · rename_i hzero
    rw [hzero]
    exact emitRaw_eq line (by decide)
  · split
    · rename_i hone
      rw [hone]
      exact emitRaw_eq line (by decide)
    · rfl

theorem emitCsvOptionalI64_eq (line : CsvLine) (value : Option Int64) :
    emitCsvOptionalI64 line value =
      emitField line (value.elim [] fun value => utf8 (toString value.toInt)) := by
  cases value with
  | none => exact emitNothing_eq line
  | some value => rfl

theorem emitIdentity_eq (line : CsvLine) : emitIdentity texts opts zone row line =
    ((identityColumns.map .fixed).map (AppColumn.value texts opts zone row)).foldl emitField
      line := by
  simp only [emitIdentity, emitEventTimestamp_eq]
  rfl

theorem emitCodebook_eq (line : CsvLine) (includeAliases : Bool)
    (codebook : Option CodebookSchema) : emitCodebook row line includeAliases codebook =
    ((codebookColumns includeAliases codebook).map (AppColumn.value texts opts zone row)).foldl
      emitField line := by
  cases codebook with
  | none => rfl
  | some codebook =>
      have hfields : ∀ (l : List Nat) (line : CsvLine),
          l.foldl (fun line i => emit line (codebookText row i)) line =
            ((l.map AppColumn.codebook).map (AppColumn.value texts opts zone row)).foldl emitField
              line := by
        intro l line
        rw [List.map_map, List.foldl_map]
        rfl
      cases includeAliases <;> exact hfields _ _

theorem emitInterval_eq (line : CsvLine) : emitInterval texts opts zone row line =
    (((intervalColumns opts).map .fixed).map (AppColumn.value texts opts zone row)).foldl emitField
      line := by
  simp only [emitInterval, emitSessionTimestamp_eq, emitCsvOptionalFloat_eq,
    emitCsvOptionalI64_eq]
  unfold intervalColumns
  cases opts.schoedelIsActive <;> cases opts.includeAppUsageEndReason <;>
    cases opts.includeUsageSessionId <;> rfl

theorem emitFoundational_eq (line : CsvLine) : emitFoundational texts opts row line =
    (((foundationalColumns opts).map .fixed).map (AppColumn.value texts opts zone row)).foldl
      emitField line := by
  simp only [emitFoundational, emitCsvOptionalFloat_eq]
  unfold foundationalColumns
  cases opts.microUseActive <;> cases opts.b04Columns <;> cases opts.maximumDurationColumns <;> rfl

theorem emitFlags_eq (line : CsvLine) : emitFlags texts opts row line =
    ((flagColumns opts).map (AppColumn.value texts opts zone row)).foldl emitField line := by
  simp only [emitFlags, emitCsvFloat_eq, emitCsvU8_eq, emitCsvI32_eq]
  unfold flagColumns
  cases opts.usageLayerActive <;> rfl

/-- A chain of fields writes them with commas between them. -/
theorem out_foldl_emitField {fields : List (List UInt8)} (hfields : fields ≠ []) :
    (fields.foldl emitField ⟨[], true⟩).out = writeFields [] fields := by
  have hrest : ∀ (rest : List (List UInt8)) (out field : List UInt8),
      (rest.foldl emitField ⟨writeCsvField out field, false⟩).out =
        writeFields out (field :: rest) := by
    intro rest
    induction rest with
    | nil => exact fun out field => rfl
    | cons next rest ih => exact fun out field => ih _ next
  cases fields with
  | nil => exact absurd rfl hfields
  | cons field rest => exact hrest rest [] field

/-- The line of a row has one field for each column. -/
theorem appRowLine_eq (includeAliases : Bool) (codebook : Option CodebookSchema) :
    appRowLine texts opts includeAliases codebook row =
      writeFields [] ((appColumns opts includeAliases codebook).map
        (AppColumn.value texts opts (rowZone texts opts row) row)) ++ [ascii '\n'] := by
  rw [← out_foldl_emitField (by simp [appColumns, identityColumns])]
  unfold appRowLine appColumns
  simp only [List.map_append, List.foldl_append]
  rw [← emitIdentity_eq, ← emitCodebook_eq, ← emitInterval_eq, ← emitFoundational_eq,
    ← emitFlags_eq]

end Chain

/-! ## The names of the header -/

section Header

/-- A splice after a name that does not come before. -/
theorem insertAfter_append {name : String} {inserted before after : List String}
    (h : name ∉ before) :
    insertAfter name inserted (before ++ name :: after) =
      before ++ name :: (inserted ++ after) := by
  have hfind : (before ++ name :: after).findIdx? (· == name) = some before.length := by
    induction before with
    | nil => simp [List.findIdx?_cons]
    | cons first rest ih =>
        obtain ⟨hfirst, hrest⟩ := not_or.mp (fun hmem => h (List.mem_cons.mpr hmem))
        have hne : (first == name) = false := beq_false_of_ne (Ne.symm hfirst)
        rw [List.cons_append, List.findIdx?_cons, hne, ih hrest]
        rfl
  have hsplit : before ++ name :: after = (before ++ [name]) ++ after := by
    rw [List.append_assoc]
    rfl
  have hlength : before.length + 1 = (before ++ [name]).length := by
    rw [List.length_append]
    rfl
  simp only [insertAfter, hfind, Option.elim_some]
  rw [hsplit, hlength, List.take_left, List.drop_left]
  simp

variable {texts : Texts} {opts : AppCsvOptions} {codebook : Option CodebookSchema}
  {includeAliases : Bool}

/-- The names up to `application_label`. -/
def identityNames : List String :=
  ["study_id", "study_name", "participant_id", "possible_device_model", "username",
    "event_timestamp", "date", "timezone", "app_package_name", "application_label"]

/-- The names from `any_app_usage_flags` on. -/
def flagNames (dur : String) (usageLayerActive : Bool) : List String :=
  ["any_app_usage_flags", "data_time_gap_hours", "day", "weekdayMF", "weekdayMTh", "weekdaySuTh",
    "hour", "quarter", "valid_app_new_engage_30s", "valid_app_new_engage_custom_" ++ dur ++ "s",
    "valid_app_switched_app", "valid_app_usage_time_gap_hours", "any_app_new_engage_30s",
    "any_app_new_engage_custom_" ++ dur ++ "s", "any_app_switched_app",
    "any_app_usage_time_gap_hours", "preprocessor_version", "datetime_of_preprocessing"] ++
    if usageLayerActive then ["usage_layer"] else []

/-- The names of a codebook's part. -/
def codebookNames (includeAliases : Bool) (codebook : Option CodebookSchema) : List String :=
  match codebook with
  | none => []
  | some codebook =>
      "genreId_scraped" :: ((if includeAliases then ["broad_app_category"] else []) ++
        codebook.outputColumns)

theorem map_name_codebookColumns (dur : String) (codebook : Option CodebookSchema) :
    (codebookColumns includeAliases codebook).map (AppColumn.name dur codebook) =
      codebookNames includeAliases codebook := by
  cases codebook with
  | none => rfl
  | some codebook =>
      have hnames : ((List.range codebook.columns.length).map AppColumn.codebook).map
          (AppColumn.name dur (some codebook)) = codebook.outputColumns := by
        have hlength : codebook.columns.length = codebook.outputColumns.length :=
          (List.length_map _).symm
        rw [List.map_map, hlength]
        refine List.ext_getElem (by simp) fun i hi hi' => ?_
        rw [List.getElem_map, List.getElem_range]
        show codebook.outputColumns.getD i "" = _
        rw [List.getD_eq_getElem?_getD, List.getElem?_eq_getElem hi', Option.getD_some]
      unfold codebookColumns codebookNames
      rw [List.map_cons, List.map_append, hnames]
      cases includeAliases <;> rfl

theorem declaredAppOutputColumns_eq (usageLayerActive includeEndReason includeSessionId : Bool)
    (dur : String) :
    declaredAppOutputColumns codebook includeAliases usageLayerActive dur includeEndReason
        includeSessionId =
      (identityNames ++ codebookNames includeAliases codebook ++
        ["interaction_type", "start_timestamp"]) ++
      "stop_timestamp" :: ((if includeEndReason then ["app_usage_end_reason"] else []) ++
        (if includeSessionId then ["usage_session_id"] else []) ++ ["duration_seconds"] ++
      "duration_minutes" :: flagNames dur usageLayerActive) := by
  unfold declaredAppOutputColumns codebookNames identityNames flagNames
  cases codebook with
  | none => cases includeEndReason <;> cases includeSessionId <;> cases usageLayerActive <;> rfl
  | some codebook =>
      cases includeAliases <;> cases includeEndReason <;> cases includeSessionId <;>
        cases usageLayerActive <;> simp

/-- The names that the research axes add. -/
def foundationalNames (microUseActive b04Columns b06GenericActive : Bool) : List String :=
  (if microUseActive then ["micro_use_classification"] else []) ++
    (if b04Columns then
      ["raw_episode_duration_seconds", "minimum_duration_qualified",
        "minimum_duration_aggregate_eligible"]
    else []) ++
    if b06GenericActive then
      (if !b04Columns then ["raw_episode_duration_seconds"] else []) ++
        ["maximum_duration_qualified", "maximum_duration_aggregate_eligible",
          "maximum_duration_trimmed_seconds", "effective_endpoint_reason"]
    else []

/-- Both splices stand where they belong. -/
theorem insertConditionalAppOutputColumns_eq {before middle after : List String}
    (schoedelActive microUseActive b04Columns b06GenericActive : Bool)
    (hstop : "stop_timestamp" ∉ before) (hminutes : "duration_minutes" ∉ before)
    (hmiddle : "duration_minutes" ∉ middle) :
    insertConditionalAppOutputColumns
        (before ++ "stop_timestamp" :: (middle ++ "duration_minutes" :: after))
        schoedelActive microUseActive b04Columns b06GenericActive =
      before ++ "stop_timestamp" ::
        ((if schoedelActive then ["screen_interval_id", "schoedel_completion"] else []) ++
          middle ++ "duration_minutes" ::
            (foundationalNames microUseActive b04Columns b06GenericActive ++ after)) := by
  have hsecond : ∀ inserted : List String, "duration_minutes" ∉ inserted →
      ∀ names : List String, insertAfter "duration_minutes" names
        (before ++ "stop_timestamp" :: (inserted ++ (middle ++ "duration_minutes" :: after))) =
      before ++ "stop_timestamp" ::
        (inserted ++ middle ++ "duration_minutes" :: (names ++ after)) := by
    intro inserted hinserted names
    have hsplit : before ++ "stop_timestamp" :: (inserted ++ (middle ++ "duration_minutes" ::
        after)) = (before ++ "stop_timestamp" :: (inserted ++ middle)) ++
          "duration_minutes" :: after := by simp
    rw [hsplit, insertAfter_append (by simp [hminutes, hinserted, hmiddle])]
    simp
  have hfoundational : ∀ columns : List String,
      insertConditionalAppOutputColumns columns schoedelActive microUseActive b04Columns
        b06GenericActive = insertAfter "duration_minutes"
          (foundationalNames microUseActive b04Columns b06GenericActive)
          (if schoedelActive then
            insertAfter "stop_timestamp" ["screen_interval_id", "schoedel_completion"] columns
          else columns) := by
    intro columns
    cases microUseActive <;> cases b04Columns <;> cases b06GenericActive <;> rfl
  rw [hfoundational]
  cases schoedelActive with
  | false => exact hsecond [] (by simp) _
  | true =>
      rw [if_pos rfl, insertAfter_append hstop]
      exact hsecond _ (by simp) _

theorem map_name_intervalColumns : (intervalColumns opts).map FixedColumn.name =
    ["interaction_type", "start_timestamp", "stop_timestamp"] ++
      (if opts.schoedelIsActive then ["screen_interval_id", "schoedel_completion"] else []) ++
      (if opts.includeAppUsageEndReason then ["app_usage_end_reason"] else []) ++
      (if opts.includeUsageSessionId then ["usage_session_id"] else []) ++
      ["duration_seconds", "duration_minutes"] := by
  unfold intervalColumns
  cases opts.schoedelIsActive <;> cases opts.includeAppUsageEndReason <;>
    cases opts.includeUsageSessionId <;> rfl

theorem map_name_foundationalColumns : (foundationalColumns opts).map FixedColumn.name =
    foundationalNames opts.microUseActive opts.b04Columns opts.maximumDurationColumns := by
  unfold foundationalColumns foundationalNames
  cases opts.microUseActive <;> cases opts.b04Columns <;> cases opts.maximumDurationColumns <;> rfl

theorem map_name_flagColumns (dur : String) (codebook : Option CodebookSchema) :
    (flagColumns opts).map (AppColumn.name dur codebook) =
      flagNames dur opts.usageLayerActive := by
  unfold flagColumns flagNames
  cases opts.usageLayerActive <;> rfl

/-- The header has the name of each column, in their order. -/
theorem buildAppColumns_eq
    (hstop : "stop_timestamp" ∉ codebook.elim [] CodebookSchema.outputColumns)
    (hminutes : "duration_minutes" ∉ codebook.elim [] CodebookSchema.outputColumns) :
    buildAppColumns texts opts includeAliases codebook =
      (appColumns opts includeAliases codebook).map (AppColumn.name
        (texts.jsNumberToString opts.customAppEngagementDuration) codebook) := by
  -- the two columns that others are inserted after stand where they are declared
  have hbefore : ∀ name : String, name ∉ codebook.elim [] CodebookSchema.outputColumns →
      name ∉ identityNames → name ≠ "genreId_scraped" → name ≠ "broad_app_category" →
      name ≠ "interaction_type" → name ≠ "start_timestamp" →
      name ∉ identityNames ++ codebookNames includeAliases codebook ++
        ["interaction_type", "start_timestamp"] := by
    intro name hname hidentity hgenre hbroad hinteraction hstart hmem
    rcases List.mem_append.mp hmem with hmem | hmem
    · rcases List.mem_append.mp hmem with hmem | hmem
      · exact hidentity hmem
      · cases codebook with
        | none => cases hmem
        | some codebook => cases includeAliases <;> simp_all [codebookNames]
    · simp_all
  have hmiddle : "duration_minutes" ∉
      (if opts.includeAppUsageEndReason then ["app_usage_end_reason"] else []) ++
        (if opts.includeUsageSessionId then ["usage_session_id"] else []) ++
        ["duration_seconds"] := by
    cases opts.includeAppUsageEndReason <;> cases opts.includeUsageSessionId <;> decide
  have hfixed : ∀ columns : List FixedColumn,
      (columns.map AppColumn.fixed).map (AppColumn.name
        (texts.jsNumberToString opts.customAppEngagementDuration) codebook) =
      columns.map FixedColumn.name := by
    intro columns
    rw [List.map_map]
    rfl
  unfold buildAppColumns appColumns
  rw [declaredAppOutputColumns_eq, insertConditionalAppOutputColumns_eq _ _ _ _
    (hbefore _ hstop (by decide) (by decide) (by decide) (by decide) (by decide))
    (hbefore _ hminutes (by decide) (by decide) (by decide) (by decide) (by decide)) hmiddle]
  rw [List.map_append, List.map_append, List.map_append, map_name_codebookColumns, hfixed, hfixed,
    List.map_append, map_name_intervalColumns, map_name_foundationalColumns, map_name_flagColumns]
  have hidentity : identityColumns.map FixedColumn.name = identityNames := rfl
  rw [hidentity]
  simp only [List.append_assoc, List.cons_append, List.nil_append]

end Header

end Chronicle.Output
