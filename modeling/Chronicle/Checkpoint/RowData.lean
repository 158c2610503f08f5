import Chronicle.Checkpoint.Workflow
import Chronicle.Library.PrefixCodes
import Chronicle.Pipeline.ScreenSessions
import Chronicle.Screens.Types

/-!
# The data of a row and its encodings

All columns of a row, the three buckets into which writers divide them, and the bytes that the three
fingerprints are formed of. An `f64` is its bit pattern.
-/

namespace Chronicle.Checkpoint

open Chronicle.Library Chronicle.Library.Bytes Chronicle.Pipeline Chronicle.Screens

/-- A text; its bytes are counted by a `u64`. -/
@[ext]
structure SharedString where
  text : String
  fits : (utf8 text).length < 2 ^ 64
deriving DecidableEq

/-- A vector; its elements are counted by a `u64`. -/
@[ext]
structure Vec (α : Type) where
  toList : List α
  fits : toList.length < 2 ^ 64
deriving DecidableEq

instance : Inhabited SharedString := ⟨⟨"", by decide⟩⟩

instance {α : Type} : Inhabited (Vec α) := ⟨⟨[], Nat.two_pow_pos 64⟩⟩

/-- The bit pattern of an `f64`. -/
abbrev F64 := UInt64

/-- A range of rows of the source file. -/
@[ext]
structure DataRowRange where
  first : UInt32
  last : UInt32
deriving DecidableEq

/-- `LineageSearchEvidence`, with the digest as it is held. -/
@[ext]
structure LineageSearch where
  protocolVersion : SharedString
  reason : SharedString
  indexSpace : SharedString
  startParticipantId : SharedString
  startEventIndex : UInt32
  endEventIndexExclusive : UInt32
  candidateEventCount : UInt32
  candidateChainDigest : Vector UInt8 32
deriving DecidableEq

/-- `RowEpisodeTiming`; the defaults are those of `RowEpisodeTiming::EMPTY`, which a row without a
box reads. -/
@[ext]
structure RowEpisodeTiming where
  startTimestampNs : Option Int64 := none
  stopTimestampNs : Option Int64 := none
  durationSeconds : Option F64 := none
  durationMinutes : Option F64 := none
  rawEpisodeStartTimestampNs : Option Int64 := none
  rawEpisodeStopTimestampNs : Option Int64 := none
  rawEpisodeDurationNs : Option Int64 := none
  minimumDurationQualified : Option Bool := none
  minimumDurationAggregateEligible : Bool := true
  minimumDurationBlankApplied : Bool := false
  concurrentSubintervalFloorBlankApplied : Bool := false
  minimumDurationDropPending : Bool := false
  maximumDurationQualified : Option Bool := none
  maximumDurationAggregateEligible : Bool := true
  maximumDurationDropPending : Bool := false
  maximumDurationTrimmedNs : Option Int64 := none
  effectiveEndpointReason : Option MaximumDurationEffectiveEndpointReason := none
  screenUsageLastActivityTimestampNs : Option Int64 := none
  screenUsageTailGapSeconds : Option F64 := none
deriving DecidableEq

/-- `RowIdentityView`: what the row is and where it came from. -/
@[ext]
structure RowIdentityView where
  sourceDataRows : Vec DataRowRange := default
  lineageSearches : Vec LineageSearch := default
  index : UInt64 := 0

/-- `RowTemporalView`: when the row happened and how long it lasted. -/
@[ext]
structure RowTemporalView where
  eventTimestampNs : Int64 := 0
  timezone : SharedString := default
  dataTimeGapHours : F64 := 0
  date : SharedString := default
  day : UInt8 := 0
  weekdayMf : UInt8 := 0
  weekdayMth : UInt8 := 0
  weekdaySuTh : UInt8 := 0
  hour : UInt8 := 0
  quarter : UInt8 := 0
  episodeTiming : RowEpisodeTiming := {}
  validAppUsageTimeGapHours : F64 := 0
  anyAppUsageTimeGapHours : F64 := 0

/-- `RowClassificationView`: the labels and derived categorical columns. -/
@[ext]
structure RowClassificationView where
  studyId : SharedString := default
  participantId : SharedString := default
  possibleDeviceModel : SharedString := default
  username : SharedString := default
  applicationLabel : SharedString := default
  interactionType : SharedString := default
  appPackageName : SharedString := default
  anyAppUsageFlags : SharedString := default
  screenUsageEndReason : Option SharedString := none
  appUsageEndReason : Option SharedString := none
  screenIntervalId : Option SharedString := none
  schoedelCompletion : Option SchoedelCompletion := none
  usageSessionId : Option Int64 := none
  screenUsageEndReasonConfidence : Option F64 := none
  screenUsageStopEventType : Option SharedString := none
  screenUsageForegroundAppPackage : Option SharedString := none
  screenUsageAppObserved : Option Bool := none
  screenUsageSessionClassification : Option SharedString := none
  screenUsageAppsForcingScreenOpenLabel : Option SharedString := none
  screenUsageLockScreenOnly : Option UInt8 := none
  validAppNewEngage30s : Int32 := 0
  validAppNewEngageCustom : Int32 := 0
  validAppSwitchedApp : Int32 := 0
  anyAppNewEngage30s : Int32 := 0
  anyAppNewEngageCustom : Int32 := 0
  anyAppSwitchedApp : Int32 := 0
  genreIdScraped : Option SharedString := none
  broadAppCategory : Option SharedString := none
  codebookFields : Vec (Option SharedString) := default
  codebookGenreFieldsCleared : Option (List Nat) := none
  usageLayer : Option SharedString := none
  microUseClassification : Option MicroUseClassification := none

/-- `RowData`, by the buckets of `split_row_buckets`. -/
structure RowData extends RowIdentityView, RowTemporalView, RowClassificationView

/-! ## Encodings -/

/-- `i64::to_le_bytes` -/
def i64Bytes (value : Int64) : List UInt8 := leBytes 8 value.toUInt64.toNat

/-- `f64::to_bits` and `u64::to_le_bytes` -/
def f64Bytes (value : F64) : List UInt8 := leBytes 8 value.toNat

/-- `i32::to_le_bytes` -/
def i32Bytes (value : Int32) : List UInt8 := leBytes 4 value.toUInt32.toNat

/-- `u8::from` -/
def boolByte (value : Bool) : UInt8 := if value then 1 else 0

/-- `checkpoint_digest_optional_string`, `checkpoint_digest_optional_i64` and
`checkpoint_digest_optional_f64` -/
def digestOptional {α : Type} (encode : α → List UInt8) : Option α → List UInt8
  | some value => 1 :: encode value
  | none => [0]

/-- `checkpoint_digest_optional_bool` -/
def digestOptionalBool : Option Bool → List UInt8
  | some value => [1, boolByte value]
  | none => [0, 0]

/-- A shared text as a field. -/
def sharedField (value : SharedString) : List UInt8 := textField value.text

/-- A range, as the identity of a row reads it. -/
def DataRowRange.range (rows : DataRowRange) : SourceDataRowRange :=
  ⟨rows.first.toNat, rows.last.toNat⟩

/-- A search, as the identity of a row reads it; `encode_blake3_digest` spells the digest out. -/
def LineageSearch.evidence (search : LineageSearch) : LineageSearchEvidence where
  protocolVersion := search.protocolVersion.text
  reason := search.reason.text
  indexSpace := search.indexSpace.text
  startParticipantId := search.startParticipantId.text
  startEventIndex := search.startEventIndex.toNat
  endEventIndexExclusive := search.endEventIndexExclusive.toNat
  candidateEventCount := search.candidateEventCount.toNat
  candidateChainDigest := "blake3:" ++ hexEncode search.candidateChainDigest.toList

/-- The byte of the endpoint reason. -/
def endpointReasonByte : Option MaximumDurationEffectiveEndpointReason → UInt8
  | none => 0
  | some .maximumDurationTruncationBoundary => 1

/-- The timing fields, as the temporal part holds them. -/
def encodeEpisodeTiming (timing : RowEpisodeTiming) : List UInt8 :=
  digestOptional i64Bytes timing.startTimestampNs ++
  digestOptional i64Bytes timing.stopTimestampNs ++
  digestOptional f64Bytes timing.durationSeconds ++
  digestOptional f64Bytes timing.durationMinutes ++
  digestOptional i64Bytes timing.rawEpisodeStartTimestampNs ++
  digestOptional i64Bytes timing.rawEpisodeStopTimestampNs ++
  digestOptional i64Bytes timing.rawEpisodeDurationNs ++
  digestOptionalBool timing.minimumDurationQualified ++
  [boolByte timing.minimumDurationAggregateEligible, boolByte timing.minimumDurationBlankApplied,
    boolByte timing.concurrentSubintervalFloorBlankApplied,
    boolByte timing.minimumDurationDropPending] ++
  digestOptionalBool timing.maximumDurationQualified ++
  [boolByte timing.maximumDurationAggregateEligible,
    boolByte timing.maximumDurationDropPending] ++
  digestOptional i64Bytes timing.maximumDurationTrimmedNs ++
  [endpointReasonByte timing.effectiveEndpointReason] ++
  digestOptional i64Bytes timing.screenUsageLastActivityTimestampNs ++
  digestOptional f64Bytes timing.screenUsageTailGapSeconds

/-- The temporal part of `encode_row_checkpoint_parts`. -/
def encodeTemporal (data : RowData) : List UInt8 :=
  textField "chronicle-row-temporal/v3" ++
  i64Bytes data.eventTimestampNs ++
  sharedField data.timezone ++
  f64Bytes data.dataTimeGapHours ++
  sharedField data.date ++
  [data.day, data.weekdayMf, data.weekdayMth, data.weekdaySuTh, data.hour, data.quarter] ++
  encodeEpisodeTiming data.episodeTiming ++
  f64Bytes data.validAppUsageTimeGapHours ++
  f64Bytes data.anyAppUsageTimeGapHours

/-- The provenance of the interval; `none` where the completion is expected and missing. -/
def encodeIntervalProvenance (data : RowData) : Option (List UInt8) :=
  match data.screenIntervalId with
  | none => some []
  | some intervalId =>
      if data.interactionType.text = screenUsage then
        some (textField "chronicle-screen-interval-provenance/v1" ++ sharedField intervalId)
      else
        data.schoedelCompletion.map fun completion =>
          textField "chronicle-schoedel-provenance/v1" ++ sharedField intervalId ++
            textField completion.canonicalId

/-- The bytes of the flag of lock-screen sessions. -/
def encodeLockScreenOnly : Option UInt8 → List UInt8
  | some value => [1, value]
  | none => [0, 0]

/-- The values of the codebook, where what is marked as cleared is absent. -/
def RowClassificationView.codebookValues (data : RowClassificationView) :
    List (Option SharedString) :=
  data.codebookFields.toList.mapIdx fun position value =>
    if data.codebookGenreFieldsCleared.any (·.contains position) then none else value

/-- The codebook fields: one zero for each when all are absent. -/
def encodeCodebookFields (data : RowData) : List UInt8 :=
  if data.codebookFields.toList.all Option.isNone then
    List.replicate data.codebookFields.toList.length 0
  else data.codebookValues.flatMap (digestOptional sharedField)

/-- `MicroUseClassification::canonical_id` -/
def microUseCanonicalId : MicroUseClassification → String
  | .microUse => "micro_use"
  | .notMicroUse => "not_micro_use"
  | .notClassifiable => "not_classifiable"

/-- The classification part before the provenance of the interval. -/
def encodeLabels (data : RowData) : List UInt8 :=
  textField "chronicle-row-classification/v3" ++
  sharedField data.studyId ++
  sharedField data.participantId ++
  sharedField data.possibleDeviceModel ++
  sharedField data.username ++
  sharedField data.applicationLabel ++
  sharedField data.interactionType ++
  sharedField data.appPackageName ++
  sharedField data.anyAppUsageFlags ++
  digestOptional sharedField data.screenUsageEndReason ++
  digestOptional sharedField data.appUsageEndReason

/-- The classification part after the provenance of the interval, up to the codebook. -/
def encodeDerivedLabels (data : RowData) : List UInt8 :=
  digestOptional i64Bytes data.usageSessionId ++
  digestOptional f64Bytes data.screenUsageEndReasonConfidence ++
  digestOptional sharedField data.screenUsageStopEventType ++
  digestOptional sharedField data.screenUsageForegroundAppPackage ++
  digestOptional sharedField data.screenUsageAppsForcingScreenOpenLabel ++
  encodeLockScreenOnly data.screenUsageLockScreenOnly ++
  i32Bytes data.validAppNewEngage30s ++
  i32Bytes data.validAppNewEngageCustom ++
  i32Bytes data.validAppSwitchedApp ++
  i32Bytes data.anyAppNewEngage30s ++
  i32Bytes data.anyAppNewEngageCustom ++
  i32Bytes data.anyAppSwitchedApp ++
  digestOptional sharedField data.genreIdScraped ++
  digestOptional sharedField data.broadAppCategory

/-- The classification part from the codebook on; the last columns are left out when absent. -/
def encodeLateLabels (data : RowData) : List UInt8 :=
  leBytes 8 data.codebookFields.toList.length ++
  encodeCodebookFields data ++
  digestOptional sharedField data.usageLayer ++
  PrefixCodes.tagged (textField "chronicle-b03-classification/v1")
    (fun value => textField (microUseCanonicalId value)) data.microUseClassification ++
  PrefixCodes.tagged (textField "chronicle-screen-session-classification/v1") sharedField
    data.screenUsageSessionClassification ++
  PrefixCodes.tagged (textField "chronicle-screen-app-observation/v1") (fun value => [boolByte value])
    data.screenUsageAppObserved

/-- What the identity part of `encode_row_checkpoint_parts` reads. -/
def RowData.identityRow (data : RowData) : CheckpointRow where
  sourceDataRows := data.sourceDataRows.toList.map DataRowRange.range
  lineageSearches := data.lineageSearches.toList.map LineageSearch.evidence
  index := data.index.toNat

/-- `encode_row_checkpoint_parts`: the row as the three fingerprints read it; `none` where it
panics. -/
def encodeRowCheckpointParts (data : RowData) : Option CheckpointRow :=
  (encodeIntervalProvenance data).map fun provenance =>
    { data.identityRow with
      temporal := encodeTemporal data
      classification :=
        encodeLabels data ++ provenance ++ encodeDerivedLabels data ++ encodeLateLabels data }

end Chronicle.Checkpoint
