import Chronicle.Checkpoint.Workflow

/-!
# Persisted bases

A persisted base is an envelope around a compressed payload: a magic, the declared size of the
payload, the digest of the compressed bytes, and keys that the payload must repeat. Hashing,
decompression and deserialization are parameters, and so are the checks of a reconstruction base's
content, which read nothing of the envelope.
-/

namespace Chronicle.Persistence

open Chronicle.Library.Bytes Chronicle.Pipeline Chronicle.Checkpoint

/-! ## Zero-duration cleanup -/

/-- `ZeroDurationRemovedRow` -/
structure ZeroDurationRemovedRow where
  participantId : String
  appPackageName : String
  interactionType : String
  sourceDataRowRanges : List SourceDataRowRange
  eventTimestampNs : Int
  startTimestampNs : Option Int
  stopTimestampNs : Option Int
  rawEpisodeStartTimestampNs : Option Int
  rawEpisodeStopTimestampNs : Option Int
  rawEpisodeDurationNs : Option Int
  evidenceBasis : String
  usageLayer : Option String
deriving DecidableEq

/-- `ZeroDurationCleanupReceipt` -/
structure ZeroDurationCleanupReceipt where
  protocolVersion : String
  requestedApplied : Bool
  effectiveApplied : Bool
  checkpoint : String
  zeroEpisodeCandidateCount : Nat
  removedRowCount : Nat
  removedLineageDigest : String
deriving DecidableEq

/-- `ZeroDurationCleanupEvidence` -/
structure ZeroDurationCleanupEvidence where
  receipt : ZeroDurationCleanupReceipt
  removedRows : List ZeroDurationRemovedRow
deriving DecidableEq

/-- `ZERO_DURATION_CLEANUP_CHECKPOINT` -/
def zeroDurationCleanupCheckpoint : String :=
  "post_interval_quality_before_zero_duration_cleanup"

/-- The order of `canonicalize_zero_duration_removed_rows`. -/
def compareRemovedRows (left right : ZeroDurationRemovedRow) : Ordering :=
  (compare left.participantId right.participantId)
    |>.then (compare left.eventTimestampNs right.eventTimestampNs)
    |>.then (compare left.startTimestampNs right.startTimestampNs)
    |>.then (compare left.stopTimestampNs right.stopTimestampNs)
    |>.then (compare left.appPackageName right.appPackageName)
    |>.then (compare left.interactionType right.interactionType)
    |>.then (compare (left.sourceDataRowRanges.map fun range => toLex (range.first, range.last))
      (right.sourceDataRowRanges.map fun range => toLex (range.first, range.last)))
    |>.then (compare left.rawEpisodeStartTimestampNs right.rawEpisodeStartTimestampNs)
    |>.then (compare left.rawEpisodeStopTimestampNs right.rawEpisodeStopTimestampNs)
    |>.then (compare left.rawEpisodeDurationNs right.rawEpisodeDurationNs)
    |>.then (compare left.evidenceBasis right.evidenceBasis)
    |>.then (compare left.usageLayer right.usageLayer)

/-- `canonicalize_zero_duration_removed_rows` -/
def canonicalizeZeroDurationRemovedRows (rows : List ZeroDurationRemovedRow) :
    List ZeroDurationRemovedRow :=
  rows.mergeSort fun left right => (compareRemovedRows left right).isLE

/-- The row was removed as one of no length. -/
def isZeroIdentity (row : ZeroDurationRemovedRow) : Bool :=
  (row.evidenceBasis = "raw_episode_duration_ns" && row.rawEpisodeDurationNs = some 0) ||
    (row.evidenceBasis = "legacy_public_duration_seconds" && row.rawEpisodeDurationNs = none &&
      row.interactionType = appUsage)

/-- `validate_zero_duration_cleanup_evidence`; `lineageDigest` gives the digest of the serialized
rows. -/
def validateZeroDurationCleanupEvidence (lineageDigest : List ZeroDurationRemovedRow → String)
    (cleanup : ZeroDurationCleanupEvidence) : Except String Unit :=
  let receipt := cleanup.receipt
  let removedRows := cleanup.removedRows
  if receipt.protocolVersion ≠ "chronicle-zero-duration-cleanup-receipt/v1" then
    .error "zero_duration_cleanup_protocol_mismatch"
  else if receipt.checkpoint ≠ zeroDurationCleanupCheckpoint then
    .error "zero_duration_cleanup_checkpoint_mismatch"
  else if receipt.removedRowCount ≠ removedRows.length % 2 ^ 32 then
    .error "zero_duration_cleanup_removed_count_mismatch"
  else if receipt.effectiveApplied ≠ (receipt.requestedApplied && receipt.effectiveApplied) then
    .error "zero_duration_cleanup_effective_without_request"
  else if !receipt.effectiveApplied && !removedRows.isEmpty then
    .error "zero_duration_cleanup_inactive_with_removed_rows"
  else if receipt.effectiveApplied &&
      receipt.zeroEpisodeCandidateCount ≠ receipt.removedRowCount then
    .error "zero_duration_cleanup_candidate_removed_count_mismatch"
  else if removedRows.any fun row => !isZeroIdentity row then
    .error "zero_duration_cleanup_nonzero_removed_identity"
  else if canonicalizeZeroDurationRemovedRows removedRows ≠ removedRows then
    .error "zero_duration_cleanup_noncanonical_lineage_order"
  else if lineageDigest removedRows ≠ receipt.removedLineageDigest then
    .error "zero_duration_cleanup_lineage_digest_mismatch"
  else .ok ()

/-! ## Envelopes -/

/-- What a persisted base has to repeat of its header, and how the mismatch is reported. -/
structure HeaderKey (Base : Type) where
  name : String
  ofBase : Base → Except String (List UInt8)

/-- A kind of persisted base. `openBase` deserializes a decompressed payload and checks what it
holds. -/
structure BaseFormat (Base : Type) where
  magic : List UInt8
  name : String
  maxUncompressedBytes : Nat
  openBase : List UInt8 → Except String Base
  headerKeys : List (HeaderKey Base)

/-- `blake3::hash` and `lz4_flex::block::decompress`. -/
structure Compression where
  blake3 : List UInt8 → List UInt8
  decompress : List UInt8 → Nat → Except String (List UInt8)

/-- What verification takes from an envelope. -/
structure VerifiedHeader where
  keys : List (List UInt8)
  payloadDigest : List UInt8
  declaredBytes : Nat
deriving DecidableEq

/-- A message in front of an error. -/
def mapError {α : Type} (label : String) : Except String α → Except String α
  | .error error => .error (label ++ error)
  | .ok value => .ok value

section Envelope

variable {Base : Type} (compression : Compression) (format : BaseFormat Base)

/-- The bytes before the payload. -/
def BaseFormat.headerBytes : Nat := format.magic.length + 4 + 32 + 32 * format.headerKeys.length

/-- The compressed payload. -/
def BaseFormat.payload (bytes : List UInt8) : List UInt8 := bytes.drop format.headerBytes

/-- The declared size of the payload, `u32::from_le_bytes`. -/
def BaseFormat.declaredBytes (bytes : List UInt8) : Nat :=
  leValue ((bytes.drop format.magic.length).take 4)

/-- The digest that the header names. -/
def BaseFormat.namedDigest (bytes : List UInt8) : List UInt8 :=
  (bytes.drop (format.magic.length + 4)).take 32

/-- The keys that the header names. -/
def BaseFormat.namedKeys (bytes : List UInt8) : List (List UInt8) :=
  (List.range format.headerKeys.length).map fun n =>
    (bytes.drop (format.magic.length + 4 + 32 + 32 * n)).take 32

/-- The verification of an envelope. -/
def BaseFormat.verify (bytes : List UInt8) : Except String VerifiedHeader :=
  if bytes.length < format.headerBytes then .error (format.name ++ " is truncated")
  else if bytes.take format.magic.length ≠ format.magic then
    .error (format.name ++ " has an invalid header")
  else if format.maxUncompressedBytes < format.declaredBytes bytes then
    .error (format.name ++ " declares " ++ toString (format.declaredBytes bytes) ++
      " bytes, exceeding " ++ toString format.maxUncompressedBytes)
  else if compression.blake3 (format.payload bytes) ≠ format.namedDigest bytes then
    .error (format.name ++ " payload digest mismatch")
  else
    .ok ⟨format.namedKeys bytes, compression.blake3 (format.payload bytes),
      format.declaredBytes bytes⟩

/-- The base repeats the keys of the header. -/
def checkHeaderKeys (name : String) (base : Base) :
    List (HeaderKey Base) → List (List UInt8) → Except String Unit
  | headerKey :: headerKeys, key :: keys => do
      let expected ← headerKey.ofBase base
      if expected ≠ key then .error (name ++ " header " ++ headerKey.name ++ " mismatch")
      else checkHeaderKeys name base headerKeys keys
  | _, _ => .ok ()

/-- Decoding a verified envelope. -/
def BaseFormat.decodeVerified (bytes : List UInt8) (header : VerifiedHeader) :
    Except String Base := do
  let decoded ← mapError ("decompress " ++ format.name ++ ": ")
    (compression.decompress (format.payload bytes) header.declaredBytes)
  let base ← format.openBase decoded
  checkHeaderKeys format.name base format.headerKeys header.keys
  .ok base

end Envelope

/-! ## Keys -/

/-- A key as text, after its prefix; `hexDecode` is `hex::decode_to_slice` into 32 bytes. -/
def parseKey (hexDecode : String → Except String (List UInt8)) (algorithm value label : String) :
    Except String (List UInt8) :=
  match value.dropPrefix? (algorithm ++ ":") with
  | none => .error (label ++ " does not use " ++ algorithm)
  | some encoded => mapError ("decode " ++ label ++ ": ") (hexDecode encoded.copy)

/-- `parse_blake3_key` -/
def parseBlake3Key (hexDecode : String → Except String (List UInt8)) (value label : String) :
    Except String (List UInt8) := parseKey hexDecode "blake3" value label

/-- `parse_sha256_digest` -/
def parseSha256Digest (hexDecode : String → Except String (List UInt8)) (value label : String) :
    Except String (List UInt8) := parseKey hexDecode "sha256" value label

/-! ## The review base -/

/-- `ReviewBase`, with the rows and the rest of the metadata left abstract. -/
structure ReviewBase (Rows : Type) where
  protocolVersion : String
  inputKey : String
  rows : List Rows
  matcherSearchSuffixDigests : Option (List (List UInt8))
  queryCheckpoints : List (String × WorkflowCheckpoint)
  zeroDurationCleanup : Option ZeroDurationCleanupEvidence
  zeroDurationCleanupInputKey : Option String

/-- `REVIEW_BASE_PROTOCOL` -/
def reviewBaseProtocol : String := "chronicle-review-base/v21"

/-- `RECONSTRUCTION_BASE_PROTOCOL` -/
def reconstructionBaseProtocol : String := "chronicle-reconstruction-base/v27"

/-- What the review base takes from outside: `postcard::from_bytes`, `hex::decode_to_slice` and the
digest of serialized rows. -/
structure ReviewCodec (Rows : Type) where
  fromBytes : List UInt8 → Except String (ReviewBase Rows)
  hexDecode : String → Except String (List UInt8)
  lineageDigest : List ZeroDurationRemovedRow → String

section Review

variable {Rows : Type} (codec : ReviewCodec Rows)

/-- The content checks of `decode_verified_review_base_bytes`. -/
def checkReviewBase (base : ReviewBase Rows) : Except String Unit := do
  if base.protocolVersion ≠ reviewBaseProtocol then
    .error ("unsupported review-base protocol: " ++ base.protocolVersion)
  if base.zeroDurationCleanup.isSome ≠ base.zeroDurationCleanupInputKey.isSome then
    .error "review_base_zero_duration_cleanup_key_mismatch"
  match base.zeroDurationCleanup with
  | some cleanup => validateZeroDurationCleanupEvidence codec.lineageDigest cleanup
  | none => .ok ()
  match base.matcherSearchSuffixDigests with
  | some digests =>
      if digests.length ≠ base.rows.length + 1 then
        .error ("review base has " ++ toString digests.length ++
          " matcher suffix digests; expected " ++ toString (base.rows.length + 1))
      else .ok ()
  | none => .ok ()

/-- Deserialization and the content checks. -/
def openReviewBase (decoded : List UInt8) : Except String (ReviewBase Rows) := do
  let base ← mapError "decode review base: " (codec.fromBytes decoded)
  checkReviewBase codec base
  .ok base

/-- The checkpoint of the app policy. -/
def appPolicyCheckpoint (base : ReviewBase Rows) : Except String WorkflowCheckpoint :=
  match base.queryCheckpoints.lookup "mark_app_policy_matches" with
  | some checkpoint => .ok checkpoint
  | none => .error "review base is missing its app-policy checkpoint"

/-- The format behind `REVIEW_BASE_MAGIC`. -/
def reviewFormat : BaseFormat (ReviewBase Rows) where
  magic := utf8 "CHRRB021"
  name := "review base"
  maxUncompressedBytes := 128 * 1024 * 1024
  openBase := openReviewBase codec
  headerKeys :=
    [⟨"input key", fun base =>
        parseBlake3Key codec.hexDecode base.inputKey "review-base payload input key"⟩,
      ⟨"app-policy checkpoint", fun base => do
        let checkpoint ← appPolicyCheckpoint base
        parseSha256Digest codec.hexDecode checkpoint.terminalDigest
          "review-base payload app-policy checkpoint"⟩]

/-- `verify_review_base_payload` -/
def verifyReviewBasePayload (compression : Compression) (bytes : List UInt8) :
    Except String VerifiedHeader := (reviewFormat codec).verify compression bytes

/-- `decode_verified_review_base_bytes` -/
def decodeVerifiedReviewBaseBytes (compression : Compression) (bytes : List UInt8)
    (header : VerifiedHeader) : Except String (ReviewBase Rows) :=
  (reviewFormat codec).decodeVerified compression bytes header

end Review

/-! ## The reconstruction base -/

/-- The content of the reconstruction base: `postcard::from_bytes`, the row restoration and the
checks of `decode_verified_reconstruction_base_bytes`. -/
structure ReconstructionCodec (Persisted Base : Type) where
  fromBytes : List UInt8 → Except String Persisted
  hexDecode : String → Except String (List UInt8)
  protocolVersion : Persisted → String
  restoreReconstructionBase : Persisted → Except String Base
  validateMinimumDurationExcludedLineage : Base → Except String Unit
  validateZeroDurationCleanupLineage : Base → Except String Unit
  validateReconstructionBaseZeroDurationCleanup : Base → Except String Unit
  validateReconstructionBaseFoundationalSemantics : Base → Except String Unit
  inputKey : Base → String

section Reconstruction

variable {Persisted Base : Type} (codec : ReconstructionCodec Persisted Base)

/-- Deserialization, restoration and the content checks. -/
def openReconstructionBase (decoded : List UInt8) : Except String Base := do
  let persisted ← mapError "decode reconstruction base: " (codec.fromBytes decoded)
  if codec.protocolVersion persisted ≠ reconstructionBaseProtocol then
    .error ("unsupported reconstruction-base protocol: " ++ codec.protocolVersion persisted)
  let base ← codec.restoreReconstructionBase persisted
  codec.validateMinimumDurationExcludedLineage base
  codec.validateZeroDurationCleanupLineage base
  codec.validateReconstructionBaseZeroDurationCleanup base
  codec.validateReconstructionBaseFoundationalSemantics base
  .ok base

/-- The format behind `RECONSTRUCTION_BASE_MAGIC`. -/
def reconstructionFormat : BaseFormat Base where
  magic := utf8 "CHRRX027"
  name := "reconstruction base"
  maxUncompressedBytes := 192 * 1024 * 1024
  openBase := openReconstructionBase codec
  headerKeys :=
    [⟨"input key", fun base =>
        parseBlake3Key codec.hexDecode (codec.inputKey base)
          "reconstruction-base payload input key"⟩]

/-- `verify_reconstruction_base_payload` -/
def verifyReconstructionBasePayload (compression : Compression) (bytes : List UInt8) :
    Except String VerifiedHeader := (reconstructionFormat codec).verify compression bytes

/-- `decode_verified_reconstruction_base_bytes` -/
def decodeVerifiedReconstructionBaseBytes (compression : Compression) (bytes : List UInt8)
    (header : VerifiedHeader) : Except String Base :=
  (reconstructionFormat codec).decodeVerified compression bytes header

end Reconstruction

end Chronicle.Persistence
