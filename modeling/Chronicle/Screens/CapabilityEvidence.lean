import Chronicle.Screens.CapabilityCsv
import Chronicle.Screens.Construction

/-!
# The capability sidecar

The records of the sidecar are read as claims. An accepted sidecar has well-formed claims, one for
each input, participant and capability.
-/

namespace Chronicle.Screens

open Chronicle.Library.Stages

/-- `CAPABILITY_HEADER` -/
def capabilityHeader : List String :=
  ["schema_version", "raw_input_sha256", "participant_id", "capability_id", "state",
    "evidence_basis", "evidence_reference", "evidence_sha256"]

/-- `B05_INPUT_CAPABILITY_EVIDENCE_SCHEMA_VERSION` -/
def b05InputCapabilityEvidenceSchemaVersion : String := "chronicle-input-capability-evidence/v1"

/-- `CapabilityEvidenceError::new` -/
def evidenceError (detail : String) (physicalDataRow : Option Nat) : CapabilityEvidenceError where
  detail := detail
  physicalDataRow := physicalDataRow

/-- `CapabilityId::from_canonical_id` -/
def CapabilityId.fromCanonicalId (value : String) : Option CapabilityId :=
  (all ++ [androidDefaultAppsCaptured, androidUsageStatsPermissionGranted,
    selected30DayScreenTimeDataComplete]).find? fun id => value = id.canonicalId

/-- `CapabilityState::parse` -/
def CapabilityState.parse (value : String) : Option CapabilityState :=
  [capable, absent, unknown].find? fun state => value = state.canonicalId

/-- `EvidenceBasis::parse` -/
def EvidenceBasis.parse (value : String) : Option EvidenceBasis :=
  [producerManifest, exporterReceipt, transformationReceipt, studyProtocol, operatorAttestation,
    unspecified].find? fun basis => value = basis.canonicalId

/-- `ok_or_else` with an error at the row. -/
def orError {α : Type} (value : Option α) (detail : String) (row : Nat) :
    Except CapabilityEvidenceError α :=
  match value with
  | some value => .ok value
  | none => .error (evidenceError detail (some row))

/-- The evidence that a claim of the state gives, and must not give. -/
def checkConditionalEvidence (state : CapabilityState) (basis : EvidenceBasis)
    (reference digest : String) (row : Nat) : Except CapabilityEvidenceError Unit :=
  match state with
  | .capable | .absent => do
      require (basis ≠ .unspecified ∧ reference ≠ "")
        (evidenceError "invalid_conditional_evidence_fields" (some row))
      require (digest = "" ∨ isSha256Wire digest)
        (evidenceError "malformed_evidence_digest" (some row))
  | .unknown =>
      require (basis = .unspecified ∧ reference = "" ∧ digest = "")
        (evidenceError "invalid_conditional_evidence_fields" (some row))

/-- The claim of a record. -/
def claimOfRecord (record : CsvRecord) : Except CapabilityEvidenceError CapabilityClaim :=
  let row := record.startLine
  match record.fields with
  | [schemaVersion, rawInputSha256, participantId, capability, state, basis, reference, digest] => do
      require (schemaVersion = b05InputCapabilityEvidenceSchemaVersion)
        (evidenceError "wrong_schema_version" (some row))
      require (isSha256Wire rawInputSha256) (evidenceError "malformed_raw_input_digest" (some row))
      require (participantId ≠ "") (evidenceError "empty_participant_id" (some row))
      let capabilityId ← orError (CapabilityId.fromCanonicalId capability) "unknown_capability_id" row
      let state ← orError (CapabilityState.parse state) "unknown_state" row
      let evidenceBasis ← orError (EvidenceBasis.parse basis) "unknown_evidence_basis" row
      checkConditionalEvidence state evidenceBasis reference digest row
      return {
        physicalDataRow := row
        rawInputSha256
        participantId
        capabilityId
        state
        evidenceBasis
        evidenceReference := reference
        evidenceSha256 := if digest = "" then none else some digest }
  | _ => .error (evidenceError "wrong_column_count" (some row))

/-- What a claim is about; no two claims are about the same. -/
def CapabilityClaim.identity (claim : CapabilityClaim) : String × String × CapabilityId :=
  (claim.rawInputSha256, claim.participantId, claim.capabilityId)

/-- The claims of the records, after those that were read before. -/
def readClaims : List CapabilityClaim → List CsvRecord →
    Except CapabilityEvidenceError (List CapabilityClaim)
  | claims, [] => .ok claims
  | claims, record :: rest => do
      let claim ← claimOfRecord record
      require (claim.identity ∉ claims.map CapabilityClaim.identity)
        (evidenceError "duplicate_claim" (some record.startLine))
      readClaims (claims ++ [claim]) rest

/-- `parse_capability_evidence` -/
def parseCapabilityEvidence (sha256 : List UInt8 → List UInt8) (bytes : List UInt8) :
    Except CapabilityEvidenceError ParsedCapabilityEvidence :=
  if bytes = [] then .error (evidenceError "empty_artifact" none)
  else
    match String.fromUTF8? bytes.toByteArray with
    | none => .error (evidenceError "invalid_utf8" none)
    | some text => do
        let records ← parseCsvRecords text
        match records with
        | [] => .error (evidenceError "empty_artifact" none)
        | header :: rest => do
            require (header.fields = capabilityHeader) (evidenceError "wrong_header" none)
            require (rest ≠ []) (evidenceError "empty_artifact" none)
            let claims ← readClaims [] rest
            return ⟨claims, sha256Wire sha256 bytes⟩

/-! ## Accepted sidecars -/

/-- What an accepted claim satisfies: evidence that is given is not empty. -/
structure CapabilityClaim.WellFormed (claim : CapabilityClaim) : Prop where
  rawInput : isSha256Wire claim.rawInputSha256
  participant : claim.participantId ≠ ""
  asserted : claim.state ≠ .unknown → claim.evidenceBasis ≠ .unspecified ∧
    claim.evidenceReference ≠ ""
  unknown : claim.state = .unknown → claim.evidenceBasis = .unspecified ∧
    claim.evidenceReference = "" ∧ claim.evidenceSha256 = none
  digest : ∀ digest ∈ claim.evidenceSha256, digest ≠ "" ∧ isSha256Wire digest

/-- The record of a claim. -/
def CapabilityClaim.record (claim : CapabilityClaim) : CsvRecord where
  fields := [b05InputCapabilityEvidenceSchemaVersion, claim.rawInputSha256, claim.participantId,
    claim.capabilityId.canonicalId, claim.state.canonicalId, claim.evidenceBasis.canonicalId,
    claim.evidenceReference, claim.evidenceSha256.getD ""]
  startLine := claim.physicalDataRow

theorem CapabilityId.fromCanonicalId_eq_some {value : String} {id : CapabilityId} :
    fromCanonicalId value = some id ↔ value = id.canonicalId :=
  ⟨fun h => by simpa using List.find?_some h, fun h => by subst h; cases id <;> decide⟩

theorem CapabilityState.parse_eq_some {value : String} {state : CapabilityState} :
    parse value = some state ↔ value = state.canonicalId :=
  ⟨fun h => by simpa using List.find?_some h, fun h => by subst h; cases state <;> decide⟩

theorem EvidenceBasis.parse_eq_some {value : String} {basis : EvidenceBasis} :
    parse value = some basis ↔ value = basis.canonicalId :=
  ⟨fun h => by simpa using List.find?_some h, fun h => by subst h; cases basis <;> decide⟩

theorem orError_eq_ok {α : Type} {value : Option α} {detail : String} {row : Nat} {a : α} :
    orError value detail row = .ok a ↔ value = some a := by
  cases value <;> simp [orError]

theorem checkConditionalEvidence_eq_ok {state : CapabilityState} {basis : EvidenceBasis}
    {reference digest : String} {row : Nat} :
    checkConditionalEvidence state basis reference digest row = .ok () ↔
      (state ≠ .unknown → basis ≠ .unspecified ∧ reference ≠ "") ∧
        (state = .unknown → basis = .unspecified ∧ reference = "" ∧ digest = "") ∧
        (digest = "" ∨ isSha256Wire digest = true) := by
  cases state with
  | unknown =>
      simp only [checkConditionalEvidence, require_eq_ok]
      tauto
  | _ => simp [checkConditionalEvidence, check_and]

/-- Exactly the records of well-formed claims are read, as these claims. -/
theorem claimOfRecord_eq_ok {record : CsvRecord} {claim : CapabilityClaim} :
    claimOfRecord record = .ok claim ↔ claim.WellFormed ∧ record = claim.record := by
  constructor
  · intro h
    obtain ⟨fields, startLine⟩ := record
    unfold claimOfRecord at h
    dsimp only at h
    split at h
    · simp only [bind_eq_ok, orError_eq_ok, CapabilityId.fromCanonicalId_eq_some,
        CapabilityState.parse_eq_some, EvidenceBasis.parse_eq_some] at h
      obtain ⟨_, hschema, _, hraw, _, hparticipant, id, rfl, state, rfl, basis, rfl, _, hevidence,
        hclaim⟩ := h
      obtain ⟨hasserted, hunknown, hdigest⟩ := checkConditionalEvidence_eq_ok.mp hevidence
      cases hclaim
      refine ⟨⟨require_eq_ok.mp hraw, require_eq_ok.mp hparticipant, hasserted, fun heq => ?_,
        fun digest hmem => ?_⟩, ?_⟩
      · obtain ⟨hbasis, hreference, hempty⟩ := hunknown heq
        exact ⟨hbasis, hreference, if_pos hempty⟩
      · obtain ⟨hne, heq⟩ := Option.ite_none_left_eq_some.mp hmem
        cases heq
        exact ⟨hne, hdigest.resolve_left hne⟩
      · rw [require_eq_ok.mp hschema, CapabilityClaim.record]
        dsimp only
        split_ifs with hempty
        · rw [hempty, Option.getD_none]
        · rfl
    · cases h
  · rintro ⟨h, rfl⟩
    obtain ⟨row, raw, participant, id, state, basis, reference, digest⟩ := claim
    have hdigest : digest.getD "" = "" ∨ isSha256Wire (digest.getD "") = true := by
      cases digest with
      | none => exact .inl rfl
      | some digest => exact .inr (h.digest digest rfl).2
    have hgiven : (if digest.getD "" = "" then none else some (digest.getD "")) = digest := by
      cases digest with
      | none => rfl
      | some digest => exact if_neg (h.digest digest rfl).1
    have hevidence := (@checkConditionalEvidence_eq_ok _ _ _ _ row).mpr ⟨h.asserted, fun heq =>
      let ⟨hbasis, hreference, hnone⟩ := h.unknown heq
      ⟨hbasis, hreference, congrArg (Option.getD · "") hnone⟩, hdigest⟩
    simp only [claimOfRecord, CapabilityClaim.record, bind_eq_ok, orError_eq_ok, hgiven]
    exact ⟨(), require_eq_ok.mpr trivial, (), require_eq_ok.mpr h.rawInput, (),
      require_eq_ok.mpr h.participant, id, CapabilityId.fromCanonicalId_eq_some.mpr rfl, state,
      CapabilityState.parse_eq_some.mpr rfl, basis, EvidenceBasis.parse_eq_some.mpr rfl, (),
      hevidence, rfl⟩

theorem readClaims_eq_ok {records : List CsvRecord} {before claims : List CapabilityClaim}
    (hbefore : (before.map CapabilityClaim.identity).Nodup) :
    readClaims before records = .ok claims ↔ ∃ more, claims = before ++ more ∧
      records = more.map CapabilityClaim.record ∧ (∀ claim ∈ more, claim.WellFormed) ∧
      (claims.map CapabilityClaim.identity).Nodup := by
  induction records generalizing before with
  | nil =>
      constructor
      · intro h
        cases h
        exact ⟨[], by simp [hbefore]⟩
      · rintro ⟨more, rfl, hmore, -, -⟩
        rw [List.map_eq_nil_iff.mp hmore.symm, List.append_nil]
        rfl
  | cons record rest ih =>
      have hnext : ∀ claim : CapabilityClaim, claim.identity ∉ before.map CapabilityClaim.identity →
          ((before ++ [claim]).map CapabilityClaim.identity).Nodup := fun claim hnew => by
        rw [List.map_append, List.map_singleton, ← List.concat_eq_append]
        exact hbefore.concat hnew
      simp only [readClaims, bind_eq_ok, claimOfRecord_eq_ok]
      constructor
      · rintro ⟨claim, ⟨hformed, rfl⟩, _, hnew, h⟩
        obtain ⟨more, rfl, rfl, hmore, hnodup⟩ := (ih (hnext claim (require_eq_ok.mp hnew))).mp h
        exact ⟨claim :: more, by simp, rfl, List.forall_mem_cons.mpr ⟨hformed, hmore⟩, hnodup⟩
      · rintro ⟨_ | ⟨claim, more⟩, rfl, hrecords, hmore, hnodup⟩
        · cases hrecords
        · cases hrecords
          have hnew : claim.identity ∉ before.map CapabilityClaim.identity := fun hin => by
            rw [List.map_append, List.nodup_append] at hnodup
            exact hnodup.2.2 _ hin claim.identity (by simp) rfl
          exact ⟨claim, ⟨hmore claim List.mem_cons_self, rfl⟩, (), require_eq_ok.mpr hnew,
            (ih (hnext claim hnew)).mpr ⟨more, List.append_cons .., rfl,
              fun other h => hmore other (.tail _ h), hnodup⟩⟩

/-- Exactly the texts of a header and of the records of well-formed claims about different things
are accepted, as these claims with the digest of the bytes. -/
theorem parse_capability_evidence_iff {sha256 : List UInt8 → List UInt8} {bytes : List UInt8}
    {evidence : ParsedCapabilityEvidence} :
    parseCapabilityEvidence sha256 bytes = .ok evidence ↔
      bytes ≠ [] ∧ (∃ text line, String.fromUTF8? bytes.toByteArray = some text ∧
        parseCsvRecords text =
          .ok (⟨capabilityHeader, line⟩ :: evidence.claims.map CapabilityClaim.record)) ∧
      evidence.claims ≠ [] ∧ (∀ claim ∈ evidence.claims, claim.WellFormed) ∧
      (evidence.claims.map CapabilityClaim.identity).Nodup ∧
      evidence.evidenceArtifactDigest = sha256Wire sha256 bytes := by
  unfold parseCapabilityEvidence
  rw [ite_error_eq_ok]
  refine and_congr_right fun _ => ?_
  cases htext : String.fromUTF8? bytes.toByteArray with
  | none => simp
  | some text =>
      dsimp only
      rw [bind_eq_ok]
      constructor
      · rintro ⟨records, hrecords, h⟩
        cases records with
        | nil => cases h
        | cons header rest =>
            simp only [bind_eq_ok] at h
            obtain ⟨_, hheader, _, hrest, claims, hclaims, hevidence⟩ := h
            cases hevidence
            obtain ⟨more, rfl, rfl, hwell, hnodup⟩ := (readClaims_eq_ok (by simp)).mp hclaims
            refine ⟨⟨text, header.startLine, rfl, ?_⟩, ?_, hwell, hnodup, rfl⟩
            · rw [hrecords, ← require_eq_ok.mp hheader]
            · simpa using require_eq_ok.mp hrest
      · rintro ⟨⟨other, line, hother, hrecords⟩, hne, hwell, hnodup, hdigest⟩
        cases hother
        refine ⟨_, hrecords, bind_eq_ok.mpr ⟨(), require_eq_ok.mpr rfl, bind_eq_ok.mpr ⟨(),
          require_eq_ok.mpr (by simpa using hne), bind_eq_ok.mpr ⟨evidence.claims,
            (readClaims_eq_ok (by simp)).mpr ⟨_, rfl, rfl, hwell, hnodup⟩, ?_⟩⟩⟩⟩
        rw [← hdigest]
        rfl

end Chronicle.Screens
