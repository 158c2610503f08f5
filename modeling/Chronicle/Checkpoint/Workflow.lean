import Chronicle.Library.Bytes
import Chronicle.Library.StableSort
import Chronicle.Pipeline.Row
import Mathlib.Data.List.Lex

/-!
# Workflow checkpoints

A checkpoint commits to a table of rows and to payloads. The rows are hashed in three parts, and
four digests are formed of the parts: three in the canonical order of the rows' sources, and one in
the order of the table. The fingerprints are parameters.
-/

namespace Chronicle.Checkpoint

open Chronicle.Library Chronicle.Library.Bytes Chronicle.Library.StableSort Chronicle.Pipeline

/-- The hash functions: `xxh3_128` with `to_le_bytes`, and `Sha256`. -/
structure Hashes where
  xxh3 : List UInt8 → List UInt8
  sha256 : List UInt8 → List UInt8

/-! ## Fields -/

/-- `checkpoint_digest_field` -/
def digestField (bytes : List UInt8) : List UInt8 := leBytes 8 bytes.length ++ bytes

/-- `checkpoint_digest_fixed16` -/
def digestFixed16 (value : List UInt8) : List UInt8 := leBytes 8 16 ++ value

/-- `checkpoint_digest_positioned_fixed16` -/
def digestPositionedFixed16 (position : Nat) (value : List UInt8) : List UInt8 :=
  leBytes 8 position ++ leBytes 8 16 ++ value

/-- A text as a field. -/
def textField (text : String) : List UInt8 := digestField (utf8 text)

/-- `WORKFLOW_CHECKPOINT_PROTOCOL` -/
def workflowCheckpointProtocol : String := "chronicle-workflow-checkpoint/v1"

/-- `WORKFLOW_ROW_SCHEMA` -/
def workflowRowSchema : String :=
  "association:source_data_rows,index;" ++
  "membership:source_data_rows;" ++
  "order:index,position;" ++
  "temporal:event_timestamp_ns,timezone,data_time_gap_hours,date,day,weekday_mf," ++
  "weekday_mth,weekday_su_th,hour,quarter,start_timestamp_ns,stop_timestamp_ns," ++
  "duration_seconds,duration_minutes,raw_episode_start_timestamp_ns," ++
  "raw_episode_stop_timestamp_ns,raw_episode_duration_ns,minimum_duration_qualified," ++
  "minimum_duration_aggregate_eligible,minimum_duration_blank_applied," ++
  "concurrent_subinterval_floor_blank_applied,minimum_duration_drop_pending," ++
  "maximum_duration_qualified,maximum_duration_aggregate_eligible," ++
  "maximum_duration_drop_pending,maximum_duration_trimmed_ns,effective_endpoint_reason," ++
  "screen_usage_last_activity_timestamp_ns," ++
  "screen_usage_tail_gap_seconds,valid_app_usage_time_gap_hours," ++
  "any_app_usage_time_gap_hours;" ++
  "classification:study_id,participant_id,possible_device_model,username," ++
  "application_label,interaction_type,app_package_name,screen_usage_end_reason," ++
  "app_usage_end_reason,screen_interval_id,schoedel_completion,usage_session_id," ++
  "screen_usage_end_reason_confidence,screen_usage_stop_event_type," ++
  "screen_usage_foreground_app_package,screen_usage_app_observed," ++
  "screen_usage_apps_forcing_screen_open_label," ++
  "screen_usage_lock_screen_only,any_app_usage_flags,valid_app_new_engage_30s," ++
  "valid_app_new_engage_custom,valid_app_switched_app,any_app_new_engage_30s," ++
  "any_app_new_engage_custom,any_app_switched_app,genre_id_scraped," ++
  "broad_app_category,codebook_fields,usage_layer"

/-- `checkpoint_hasher`: what every digest of the component begins with. -/
def checkpointHasher (component : String) : List UInt8 :=
  textField workflowCheckpointProtocol ++ textField component

/-- `finish_checkpoint_digest` -/
def finishCheckpointDigest (hashes : Hashes) (bytes : List UInt8) : String :=
  "xxh3:" ++ hexEncode (hashes.xxh3 bytes).reverse

/-! ## Rows -/

/-- What a checkpoint reads of a row: its sources, and the encodings of its temporal and its
classification columns. -/
structure CheckpointRow where
  sourceDataRows : SourceDataRows := []
  lineageSearches : List LineageSearchEvidence := []
  index : Nat := 0
  temporal : List UInt8 := []
  classification : List UInt8 := []
deriving DecidableEq, Repr, Inhabited

/-- One search, as the identity holds it. -/
def encodeSearch (search : LineageSearchEvidence) : List UInt8 :=
  textField search.protocolVersion ++ textField search.reason ++ textField search.indexSpace ++
    textField search.startParticipantId ++ leBytes 4 search.startEventIndex ++
    leBytes 4 search.endEventIndexExclusive ++ leBytes 4 search.candidateEventCount ++
    textField search.candidateChainDigest

/-- One range, as the identity holds it. -/
def encodeRange (range : SourceDataRowRange) : List UInt8 :=
  leBytes 4 range.first ++ leBytes 4 range.last

/-- The identity part of `encode_row_checkpoint_parts`. -/
def encodeIdentity (row : CheckpointRow) : List UInt8 :=
  textField "chronicle-row-identity/v3" ++
    (leBytes 8 row.sourceDataRows.iter.length ++
      (leBytes 8 row.sourceDataRows.length ++
        (row.sourceDataRows.flatMap encodeRange ++
          (leBytes 8 row.lineageSearches.length ++ row.lineageSearches.flatMap encodeSearch)))) ++
    leBytes 8 row.index

/-- `RowCheckpointParts` -/
structure RowCheckpointParts where
  identity : List UInt8
  temporal : List UInt8
  classification : List UInt8
deriving DecidableEq, Repr

/-- `row_checkpoint_parts` -/
def rowCheckpointParts (hashes : Hashes) (row : CheckpointRow) : RowCheckpointParts where
  identity := hashes.xxh3 (encodeIdentity row)
  temporal := hashes.xxh3 row.temporal
  classification := hashes.xxh3 row.classification

/-- `row_checkpoint_parts_for_rows` -/
def rowCheckpointPartsForRows (hashes : Hashes) (rows : List CheckpointRow) :
    List RowCheckpointParts :=
  rows.map (rowCheckpointParts hashes)

/-- The key of the canonical order: the expanded sources, then the index. -/
def CheckpointRow.canonicalKey (row : CheckpointRow) : List Nat ×ₗ Nat :=
  toLex (row.sourceDataRows.iter, row.index)

/-- The rows are in canonical order. -/
def isCanonical (rows : List CheckpointRow) : Bool :=
  (rows.zip rows.tail).all fun pair => pair.1.canonicalKey ≤ pair.2.canonicalKey

/-- The key at a position of the table. -/
def keyAt (rows : List CheckpointRow) (position : Nat) : List Nat ×ₗ Nat :=
  (rows.getD position default).canonicalKey

/-- The positions sorted by the keys, and by themselves where the keys agree. -/
def identityOrder (rows : List CheckpointRow) : List Nat :=
  sortByKey (fun position => toLex (keyAt rows position, position)) (List.range rows.length)

/-- `canonical_row_order`, which callers supply. -/
def canonicalRowOrder (rows : List CheckpointRow) : List Nat :=
  if isCanonical rows then List.range rows.length
  else sortByKey (keyAt rows) (List.range rows.length)

/-! ## Checkpoints -/

/-- `WorkflowCheckpoint` -/
structure WorkflowCheckpoint where
  protocolVersion : String
  subjectId : String
  rowMembershipDigest : String
  rowOrderDigest : String
  temporalStateDigest : String
  classificationDigest : String
  payloadDigest : String
  schemaDigest : String
  terminalDigest : String
deriving DecidableEq, Repr

/-- The digests that commit to the rows. -/
structure RowDigests where
  membership : String
  order : String
  temporal : String
  classification : String
deriving DecidableEq, Repr

/-- A payload with its label. -/
abbrev Payload := String × List UInt8

/-- `terminal_checkpoint_digest` -/
def terminalCheckpointDigest (hashes : Hashes) (nodeId : String) (digests : List String) : String :=
  "sha256:" ++ hexEncode (hashes.sha256 (textField workflowCheckpointProtocol ++
    textField nodeId ++ textField "terminal" ++ digests.flatMap textField))

/-- The payload digest. -/
def payloadDigest (hashes : Hashes) (payloads : List Payload) : String :=
  finishCheckpointDigest hashes (checkpointHasher "payload" ++ leBytes 8 payloads.length ++
    payloads.flatMap fun payload => textField payload.1 ++ digestField payload.2)

/-- The schema digest. -/
def schemaDigest (hashes : Hashes) (labels : List String) (payloads : List Payload) : String :=
  finishCheckpointDigest hashes (checkpointHasher "schema" ++ textField workflowRowSchema ++
    leBytes 8 labels.length ++ labels.flatMap textField ++ leBytes 8 payloads.length ++
    payloads.flatMap fun payload => textField payload.1)

/-- The checkpoint with its terminal digest. -/
def sealCheckpoint (hashes : Hashes) (nodeId : String) (rows : RowDigests)
    (payload schema : String) : WorkflowCheckpoint where
  protocolVersion := workflowCheckpointProtocol
  subjectId := nodeId
  rowMembershipDigest := rows.membership
  rowOrderDigest := rows.order
  temporalStateDigest := rows.temporal
  classificationDigest := rows.classification
  payloadDigest := payload
  schemaDigest := schema
  terminalDigest := terminalCheckpointDigest hashes nodeId
    [rows.membership, rows.order, rows.temporal, rows.classification, payload, schema]

/-- What one row group adds to the four digests. -/
structure GroupBytes where
  membership : List UInt8
  order : List UInt8
  temporal : List UInt8
  classification : List UInt8

/-- One row group; its parts are computed unless they are given, and so is its canonical order. -/
def groupBytes (hashes : Hashes) (label : String) (rows : List CheckpointRow)
    (parts : Option (List RowCheckpointParts)) (canonicalOrder : Option (List Nat)) :
    Except String GroupBytes :=
  let parts := parts.getD (rowCheckpointPartsForRows hashes rows)
  if parts.length ≠ rows.length then .error "checkpoint row-part count drift"
  else
    let order := canonicalOrder.getD
      (if isCanonical rows then List.range rows.length else identityOrder rows)
    let canonical := order.filterMap (parts[·]?)
    let header := textField label ++ leBytes 8 rows.length
    .ok
      { membership := header ++ canonical.flatMap fun parts => digestFixed16 parts.identity
        order := header ++ parts.zipIdx.flatMap fun entry =>
          digestPositionedFixed16 entry.2 entry.1.identity
        temporal := header ++ canonical.flatMap fun parts => digestFixed16 parts.temporal
        classification := header ++ canonical.flatMap fun parts =>
          digestFixed16 parts.classification }

/-- Which row digests may be taken over. -/
structure ReusableComponents where
  membership : Bool
  order : Bool
  temporal : Bool
  classification : Bool
deriving DecidableEq, Repr

/-- `PreviousRowState` -/
structure PreviousRowState where
  checkpoint : WorkflowCheckpoint
  reusableComponents : ReusableComponents
deriving DecidableEq, Repr

/-- A digest that is taken over when it may be. -/
def takeOver (previous : Option PreviousRowState) (reusable : ReusableComponents → Bool)
    (digest : WorkflowCheckpoint → String) (fresh : String) : String :=
  match previous with
  | some previous => if reusable previous.reusableComponents then digest previous.checkpoint else fresh
  | none => fresh

/-- `workflow_checkpoint_with_group_parts` -/
def workflowCheckpointWithGroupParts (hashes : Hashes) (nodeId : String)
    (rowGroups : List (String × List CheckpointRow)) (payloads : List Payload)
    (groupParts : Option (List (List RowCheckpointParts))) (previous : Option PreviousRowState)
    (singleGroupCanonicalOrder : Option (List Nat)) : Except String WorkflowCheckpoint := do
  let groups ← rowGroups.zipIdx.mapM fun entry =>
    groupBytes hashes entry.1.1 entry.1.2 (groupParts.bind (·[entry.2]?))
      (if entry.2 = 0 then singleGroupCanonicalOrder else none)
  let digest (component : String) (bytes : GroupBytes → List UInt8) : String :=
    finishCheckpointDigest hashes
      (checkpointHasher component ++ leBytes 8 rowGroups.length ++ groups.flatMap bytes)
  pure (sealCheckpoint hashes nodeId
    { membership := takeOver previous ReusableComponents.membership
        WorkflowCheckpoint.rowMembershipDigest (digest "row-membership" GroupBytes.membership)
      order := takeOver previous ReusableComponents.order
        WorkflowCheckpoint.rowOrderDigest (digest "row-order" GroupBytes.order)
      temporal := takeOver previous ReusableComponents.temporal
        WorkflowCheckpoint.temporalStateDigest (digest "temporal-state" GroupBytes.temporal)
      classification := takeOver previous ReusableComponents.classification
        WorkflowCheckpoint.classificationDigest
        (digest "classification" GroupBytes.classification) }
    (payloadDigest hashes payloads) (schemaDigest hashes (rowGroups.map Prod.fst) payloads))

/-- `workflow_checkpoint` -/
def workflowCheckpoint (hashes : Hashes) (nodeId : String)
    (rowGroups : List (String × List CheckpointRow)) (payloads : List Payload) :
    Except String WorkflowCheckpoint :=
  workflowCheckpointWithGroupParts hashes nodeId rowGroups payloads none none none

/-- `workflow_rows_checkpoint_with_parts_and_canonical_order` -/
def workflowRowsCheckpointWithPartsAndCanonicalOrder (hashes : Hashes) (nodeId : String)
    (rows : List CheckpointRow) (parts : List RowCheckpointParts) (canonicalOrder : List Nat) :
    Except String WorkflowCheckpoint :=
  workflowCheckpointWithGroupParts hashes nodeId [("rows", rows)] [] (some [parts]) none
    (some canonicalOrder)

/-! ## Reuse -/

/-- `reusable_row_components_from_parts` -/
def reusableRowComponentsFromParts (current previous : List RowCheckpointParts) :
    ReusableComponents :=
  let sameIdentity := decide (current.length = previous.length) &&
    (current.zip previous).all fun pair => pair.1.identity = pair.2.identity
  { membership := sameIdentity
    order := sameIdentity
    temporal := sameIdentity &&
      (current.zip previous).all fun pair => pair.1.temporal = pair.2.temporal
    classification := sameIdentity &&
      (current.zip previous).all fun pair => pair.1.classification = pair.2.classification }

/-- The loop of `reusable_row_components_from_rows`. -/
def compareRows (hashes : Hashes) (sameTemporal sameClassification : Bool) :
    List (RowCheckpointParts × CheckpointRow) → ReusableComponents
  | [] => ⟨true, true, sameTemporal, sameClassification⟩
  | (current, row) :: rest =>
      let previous := rowCheckpointParts hashes row
      if current.identity ≠ previous.identity then ⟨false, false, false, false⟩
      else
        compareRows hashes (sameTemporal && decide (current.temporal = previous.temporal))
          (sameClassification && decide (current.classification = previous.classification)) rest

/-- `reusable_row_components_from_rows` -/
def reusableRowComponentsFromRows (hashes : Hashes) (current : List RowCheckpointParts)
    (previous : List CheckpointRow) : ReusableComponents :=
  if current.length ≠ previous.length then ⟨false, false, false, false⟩
  else compareRows hashes true true (current.zip previous)

/-- `workflow_checkpoint_with_reusable_parts` -/
def workflowCheckpointWithReusableParts (hashes : Hashes) (nodeId : String)
    (rows : List CheckpointRow) (payloads : List Payload)
    (parts previousParts : List RowCheckpointParts) (previousCheckpoint : WorkflowCheckpoint) :
    Except String WorkflowCheckpoint :=
  workflowCheckpointWithGroupParts hashes nodeId [("rows", rows)] payloads (some [parts])
    (some ⟨previousCheckpoint, reusableRowComponentsFromParts parts previousParts⟩) none

/-- `workflow_checkpoint_with_reusable_rows` -/
def workflowCheckpointWithReusableRows (hashes : Hashes) (nodeId : String)
    (rows : List CheckpointRow) (payloads : List Payload) (parts : List RowCheckpointParts)
    (previousRows : List CheckpointRow) (previousCheckpoint : WorkflowCheckpoint) :
    Except String WorkflowCheckpoint :=
  workflowCheckpointWithGroupParts hashes nodeId [("rows", rows)] payloads (some [parts])
    (some ⟨previousCheckpoint, reusableRowComponentsFromRows hashes parts previousRows⟩) none

/-- `workflow_checkpoint_with_known_membership_and_order`; only assertions read the previous
rows. -/
def workflowCheckpointWithKnownMembershipAndOrder (hashes : Hashes) (nodeId : String)
    (rows : List CheckpointRow) (payloads : List Payload)
    (previousCheckpoint : WorkflowCheckpoint) : Except String WorkflowCheckpoint :=
  workflowCheckpointWithGroupParts hashes nodeId [("rows", rows)] payloads none
    (some ⟨previousCheckpoint, ⟨true, true, false, false⟩⟩) none

/-- The row digests of a checkpoint. -/
def WorkflowCheckpoint.rowDigests (checkpoint : WorkflowCheckpoint) : RowDigests :=
  ⟨checkpoint.rowMembershipDigest, checkpoint.rowOrderDigest, checkpoint.temporalStateDigest,
    checkpoint.classificationDigest⟩

/-- `checkpoint_for_exact_row_state` -/
def checkpointForExactRowState (hashes : Hashes) (nodeId : String) (previous : WorkflowCheckpoint)
    (payloads : List Payload) : WorkflowCheckpoint :=
  sealCheckpoint hashes nodeId previous.rowDigests (payloadDigest hashes payloads)
    (schemaDigest hashes ["rows"] payloads)

/-- `checkpoint_for_exact_state` -/
def checkpointForExactState (hashes : Hashes) (nodeId : String) (previous : WorkflowCheckpoint) :
    WorkflowCheckpoint :=
  { previous with
    subjectId := nodeId
    terminalDigest := terminalCheckpointDigest hashes nodeId
      [previous.rowMembershipDigest, previous.rowOrderDigest, previous.temporalStateDigest,
        previous.classificationDigest, previous.payloadDigest, previous.schemaDigest] }

end Chronicle.Checkpoint
