import Chronicle.Screens.DigestFields

/-!
# What the digest of a receipt commits to

The lists of a receipt are written without their lengths. They are told apart all the same: a
participant begins with a name, a scope and a number, and no other part of a receipt does.
-/

namespace Chronicle.Screens

open Chronicle.Library Chronicle.Library.Bytes Chronicle.Library.TextRows
open Chronicle.Library.StableSort

/-! ## Canonical ids -/

/-- Every capability. -/
def everyCapability : List CapabilityId :=
  CapabilityId.all ++ [.androidDefaultAppsCaptured, .androidUsageStatsPermissionGranted,
    .selected30DayScreenTimeDataComplete]

/-- The capability of a canonical id. -/
def capabilityOf (text : String) : Option CapabilityId :=
  everyCapability.find? (·.canonicalId = text)

theorem capabilityOf_canonicalId (id : CapabilityId) : capabilityOf id.canonicalId = some id := by
  cases id <;> decide

theorem CapabilityId.canonicalId_inj {a b : CapabilityId} (h : a.canonicalId = b.canonicalId) :
    a = b := by
  have hsame := congrArg capabilityOf h
  rw [capabilityOf_canonicalId, capabilityOf_canonicalId] at hsame
  exact Option.some.inj hsame

theorem capabilityOf_reason (reason : B05RefusalReason) :
    capabilityOf reason.canonicalId = none := by
  cases reason <;> decide

theorem capabilityOf_scope (scope : EvidenceScope) : capabilityOf scope.canonicalId = none := by
  cases scope <;> decide

/-- The reasons in their order. -/
def everyReason : List B05RefusalReason :=
  [.inputCapabilityEvidenceAbsent, .capabilityEvidenceNotBoundToInput,
    .participantScopeUndetermined, .multipleDeviceStreamsAliased, .deviceStreamScopeUnknown,
    .combinedEventRepresentation, .sourceStreamIncomplete, .sourceStreamCompletenessUnknown,
    .sourceOrderNotPreserved, .sourceOrderUnknown, .unsupportedInputChunk,
    .inputChunkStatusUnknown, .missingRequiredSignal, .requiredSignalCapabilityUnknown,
    .unorderableFullStreamRow, .nonMonotonicSourceTimestamps, .ambiguousEqualTimestamp]

theorem find_reason (reason : B05RefusalReason) :
    everyReason.find? (·.canonicalId = reason.canonicalId) = some reason := by
  cases reason <;> decide

theorem B05RefusalReason.canonicalId_inj (a b : B05RefusalReason)
    (h : a.canonicalId = b.canonicalId) : a = b := by
  have hsame := find_reason a
  rw [h, find_reason b] at hsame
  exact (Option.some.inj hsame).symm

theorem B05RefusalReason.canonicalId_ne_empty (reason : B05RefusalReason) :
    reason.canonicalId ≠ "" := by
  cases reason <;> decide

theorem CapabilityState.canonicalId_inj (a b : CapabilityState)
    (h : a.canonicalId = b.canonicalId) : a = b := by
  cases a <;> cases b <;> first | rfl | exact absurd h (by decide)

theorem EvidenceBasis.canonicalId_inj (a b : EvidenceBasis) (h : a.canonicalId = b.canonicalId) :
    a = b := by
  cases a <;> cases b <;> first | rfl | exact absurd h (by decide)

theorem EvidenceScope.canonicalId_inj {a b : EvidenceScope} (h : a.canonicalId = b.canonicalId) :
    a = b := by
  cases a <;> cases b <;> first | rfl | exact absurd h (by decide)

theorem CapabilityEvidenceOrigin.canonicalId_inj {a b : CapabilityEvidenceOrigin}
    (h : a.canonicalId = b.canonicalId) : a = b := by
  cases a <;> cases b <;> first | rfl | exact absurd h (by decide)

theorem ObservationDisposition.canonicalId_inj {a b : ObservationDisposition}
    (h : a.canonicalId = b.canonicalId) : a = b := by
  cases a <;> cases b <;> first | rfl | exact absurd h (by decide)

theorem ScientificRelation.canonicalId_inj {a b : ScientificRelation}
    (h : a.canonicalId = b.canonicalId) : a = b := by
  cases a <;> cases b <;> first | rfl | exact absurd h (by decide)

theorem CapabilityState.canonicalId_ne_none (state : CapabilityState) :
    state.canonicalId ≠ "none" := by
  cases state <;> decide

theorem EvidenceBasis.canonicalId_ne_none (basis : EvidenceBasis) : basis.canonicalId ≠ "none" := by
  cases basis <;> decide

theorem CapabilityState.no_digit (state : CapabilityState) :
    beginsWithDigit state.canonicalId = false := by
  cases state <;> decide

theorem EvidenceScope.no_digit (scope : EvidenceScope) :
    beginsWithDigit scope.canonicalId = false := by
  cases scope <;> decide

/-! ## The texts of a receipt -/

/-- What the digest of a receipt reads of a capability decision. -/
def CapabilityDecision.fields (decision : CapabilityDecision) : List String :=
  [decision.capabilityId.canonicalId, (decision.assertedState.map (·.canonicalId)).getD "none",
    decision.effectiveState.canonicalId, decision.evidenceScope.canonicalId,
    decision.evidenceOrigin.canonicalId, (decision.evidenceBasis.map (·.canonicalId)).getD "none",
    decision.evidenceReference.getD "", decision.evidenceSha256.getD "",
    toString decision.observedStandaloneRowCount, decision.observationDisposition.canonicalId,
    optionalNat decision.claimPhysicalDataRow]

/-- What the digest of a receipt reads of an issue. -/
def B05ParticipantIssue.fields (issue : B05ParticipantIssue) : List String :=
  [issue.reason.canonicalId, issue.detail, optionalNat issue.sourceDataRow]

/-- What the digest of a receipt reads of a participant. -/
def B05ParticipantDecision.fields (participant : B05ParticipantDecision) : List String :=
  participant.participantId :: participant.evidenceScope.canonicalId ::
    toString participant.decisiveEqualTimestampGroupCount ::
    (participant.capabilityDecisions.flatMap CapabilityDecision.fields ++
      participant.issues.flatMap B05ParticipantIssue.fields)

/-- The participants, and the text that ends a receipt. -/
def lastFields (participants : List B05ParticipantDecision) (optionsDigest : String) :
    List String :=
  participants.flatMap B05ParticipantDecision.fields ++ [optionsDigest]

/-- The texts that the digest of a receipt is the hash of. -/
def B05ApplicabilityReceiptV1.fields (receipt : B05ApplicabilityReceiptV1) : List String :=
  [receipt.protocolVersion, receipt.inputDigest, receipt.evidenceArtifactDigest.getD "",
    receipt.evidenceAssignmentDigest.getD "", receipt.requestedStrategyId.canonicalId,
    receipt.effectiveStrategyId.canonicalId, receipt.relation.canonicalId, flag receipt.executable,
    (receipt.refusalReason.map (·.canonicalId)).getD "", receipt.refusalDetail.getD "",
    receipt.sourceCheckpoint, receipt.sourceOrderIndexSpace, receipt.sourceAdapterId] ++
    (receipt.requiredSignalIds.map (·.canonicalId) ++ "|" ::
      (receipt.requiredCapabilityIds.map (·.canonicalId) ++
        lastFields receipt.participantDecisions receipt.optionsDigest))

theorem rowBytes_flatMap {α : Type} (f : α → List String) (l : List α) :
    rowBytes (l.flatMap f) = l.flatMap fun a => rowBytes (f a) := List.flatMap_assoc

theorem decisionMaterial_eq_rowBytes (decision : CapabilityDecision) :
    decision.material = rowBytes decision.fields := by
  simp only [CapabilityDecision.material, CapabilityDecision.fields, rowBytes_cons, rowBytes_nil,
    List.append_assoc, List.append_nil, optionalNat]

theorem issueMaterial_eq_rowBytes (issue : B05ParticipantIssue) :
    issue.material = rowBytes issue.fields := by
  simp only [B05ParticipantIssue.material, B05ParticipantIssue.fields, rowBytes_cons, rowBytes_nil,
    List.append_assoc, List.append_nil, optionalNat]

theorem participantMaterial_eq_rowBytes (participant : B05ParticipantDecision) :
    participant.material = rowBytes participant.fields := by
  simp only [B05ParticipantDecision.material, B05ParticipantDecision.fields, rowBytes_cons,
    rowBytes_append, rowBytes_flatMap, List.append_assoc,
    funext decisionMaterial_eq_rowBytes, funext issueMaterial_eq_rowBytes]

theorem digest_eq_rowBytes (sha256 : List UInt8 → List UInt8)
    (receipt : B05ApplicabilityReceiptV1) :
    applicabilityResolutionDigest sha256 receipt = sha256Wire sha256 (rowBytes receipt.fields) := by
  have hids : ∀ ids : List CapabilityId, (ids.flatMap fun id => digestField id.canonicalId) =
      rowBytes (ids.map (·.canonicalId)) := by
    intro ids
    rw [rowBytes, List.flatMap_map]
    rfl
  unfold applicabilityResolutionDigest B05ApplicabilityReceiptV1.fields lastFields
  simp only [hids, rowBytes_append, rowBytes_cons, rowBytes_nil, rowBytes_flatMap,
    List.append_assoc, List.cons_append, List.nil_append, List.append_nil, flag,
    funext participantMaterial_eq_rowBytes]

/-! ## Absent and empty texts -/

/-- An optional text, absent when it is empty. -/
def present (text : Option String) : Option String := text.filter fun text => !text.isEmpty

theorem present_inj {a b : Option String} (h : a.getD "" = b.getD "") : present a = present b := by
  have hgetD : ∀ o : Option String, present o = present (some (o.getD "")) := by
    intro o
    cases o <;> rfl
  rw [hgetD a, hgetD b, h]

theorem getD_present (text : Option String) : (present text).getD "" = text.getD "" := by
  cases text with
  | none => rfl
  | some text =>
      by_cases hempty : text.isEmpty = true
      · rw [present, Option.filter_some_neg (by simp [hempty]), String.isEmpty_iff.mp hempty]
        rfl
      · rw [present, Option.filter_some_pos (by simpa using hempty)]

theorem eq_of_getD {a b : Option String} (hsome : a.isSome = b.isSome)
    (h : a.getD "" = b.getD "") : a = b := by
  cases a <;> cases b <;> simp_all

/-- The decision with the absent digest of its evidence in place of an empty one. -/
def CapabilityDecision.plain (decision : CapabilityDecision) : CapabilityDecision :=
  { decision with evidenceSha256 := present decision.evidenceSha256 }

/-- The participant with plain decisions. -/
def B05ParticipantDecision.plain (participant : B05ParticipantDecision) : B05ParticipantDecision :=
  { participant with
    capabilityDecisions := participant.capabilityDecisions.map CapabilityDecision.plain }

/-- The receipt without its own digest, and with absent digests of evidence in place of empty
ones. -/
def B05ApplicabilityReceiptV1.plain (receipt : B05ApplicabilityReceiptV1) :
    B05ApplicabilityReceiptV1 :=
  { receipt with
    evidenceArtifactDigest := present receipt.evidenceArtifactDigest
    evidenceAssignmentDigest := present receipt.evidenceAssignmentDigest
    participantDecisions := receipt.participantDecisions.map B05ParticipantDecision.plain
    capabilityResolutionDigest := "" }

/-- The reference to the evidence is there when a state was asserted. -/
def CapabilityDecision.Coherent (decision : CapabilityDecision) : Prop :=
  decision.evidenceReference.isSome = decision.assertedState.isSome

/-- The text begins as a detail does, and as no scope does. -/
def beginsLikeDetail (text : String) : Bool :=
  text.toList.head?.any fun c => c = 'a' || c = 'c' || c = 'p' || c = 's'

/-- The detail of an issue is not taken for a scope. -/
def B05ParticipantIssue.Coherent (issue : B05ParticipantIssue) : Prop :=
  beginsLikeDetail issue.detail = true

/-- The decisions and issues of a participant are coherent. -/
structure B05ParticipantDecision.Coherent (participant : B05ParticipantDecision) : Prop where
  decisions : ∀ decision ∈ participant.capabilityDecisions, decision.Coherent
  issues : ∀ issue ∈ participant.issues, issue.Coherent

/-- A receipt as it is returned. -/
structure B05ApplicabilityReceiptV1.Coherent (receipt : B05ApplicabilityReceiptV1) : Prop where
  refusal : receipt.refusalDetail.isSome = receipt.refusalReason.isSome
  participants : ∀ participant ∈ receipt.participantDecisions, participant.Coherent

theorem B05ParticipantIssue.Coherent.ne_scope {issue : B05ParticipantIssue} (h : issue.Coherent)
    (scope : EvidenceScope) : scope.canonicalId ≠ issue.detail := by
  intro hscope
  have hscopes : beginsLikeDetail scope.canonicalId = false := by cases scope <;> decide
  rw [B05ParticipantIssue.Coherent, ← hscope, hscopes] at h
  exact Bool.noConfusion h

/-! ## Lists of a receipt -/

section Lists

variable {s t : List String}

/-- The texts of a decision determine it, but for an empty digest. -/
theorem decisionFields_inj {a b : CapabilityDecision} (ha : a.Coherent) (hb : b.Coherent)
    (h : a.fields ++ s = b.fields ++ t) : a.plain = b.plain ∧ s = t := by
  simp only [CapabilityDecision.fields, List.cons_append, List.nil_append, List.cons.injEq] at h
  obtain ⟨hid, hasserted, heffective, hscope, horigin, hbasis, hreference, hsha, hcount,
    hdisposition, hrow, hrest⟩ := h
  have hstate := optional_inj CapabilityState.canonicalId_inj
    CapabilityState.canonicalId_ne_none hasserted
  -- an absent reference and an empty one are written alike; the asserted state tells them apart
  have hsome : a.evidenceReference.isSome = b.evidenceReference.isSome := by
    rw [ha, hb, hstate]
  refine ⟨?_, hrest⟩
  simp only [CapabilityDecision.plain, CapabilityDecision.mk.injEq]
  exact ⟨CapabilityId.canonicalId_inj hid, hstate, CapabilityState.canonicalId_inj _ _ heffective,
    EvidenceScope.canonicalId_inj hscope, CapabilityEvidenceOrigin.canonicalId_inj horigin,
    optional_inj EvidenceBasis.canonicalId_inj EvidenceBasis.canonicalId_ne_none hbasis,
    eq_of_getD hsome hreference, present_inj hsha, toString_nat_inj hcount,
    ObservationDisposition.canonicalId_inj hdisposition, optionalNat_inj hrow⟩

theorem issueFields_inj {a b : B05ParticipantIssue} (h : a.fields ++ s = b.fields ++ t) :
    a = b ∧ s = t := by
  simp only [B05ParticipantIssue.fields, List.cons_append, List.nil_append, List.cons.injEq] at h
  obtain ⟨hreason, hdetail, hrow, hrest⟩ := h
  refine ⟨?_, hrest⟩
  cases a
  cases b
  simp only [B05ParticipantIssue.mk.injEq]
  exact ⟨B05RefusalReason.canonicalId_inj _ _ hreason, hdetail, optionalNat_inj hrow⟩

variable {participants participants' : List B05ParticipantDecision} {options options' : String}

/-- The end of a receipt is one text, or begins with a name, a scope and a number. -/
theorem lastFields_cases (participants : List B05ParticipantDecision) (options : String) :
    lastFields participants options = [options] ∨
      ∃ name scope count rest, lastFields participants options =
        name :: EvidenceScope.canonicalId scope :: toString (count : Nat) :: rest := by
  cases participants with
  | nil => exact .inl rfl
  | cons participant participants => exact .inr ⟨_, _, _, _, rfl⟩

/-- No issue begins the end of a receipt. -/
theorem lastFields_ne_issue {issue : B05ParticipantIssue} (h : issue.Coherent) :
    lastFields participants options ≠ issue.fields ++ s := by
  intro heq
  -- the second text of an issue is its detail, that of a participant a scope
  rcases lastFields_cases participants options with hlast | ⟨name, scope, count, rest, hlast⟩
  · rw [hlast] at heq
    simp [B05ParticipantIssue.fields] at heq
  · rw [hlast] at heq
    simp only [B05ParticipantIssue.fields, List.cons_append, List.cons.injEq] at heq
    exact h.ne_scope scope heq.2.1

/-- No decision begins the end of a receipt. -/
theorem lastFields_ne_decision {decision : CapabilityDecision} :
    lastFields participants options ≠ decision.fields ++ s := by
  intro heq
  -- the third text of a decision is a state, that of a participant a number
  rcases lastFields_cases participants options with hlast | ⟨name, scope, count, rest, hlast⟩
  · rw [hlast] at heq
    simp [CapabilityDecision.fields] at heq
  · rw [hlast] at heq
    simp only [CapabilityDecision.fields, List.cons_append, List.cons.injEq] at heq
    have hdigit := beginsWithDigit_nat count
    rw [heq.2.2.1, CapabilityState.no_digit] at hdigit
    exact Bool.noConfusion hdigit

theorem issues_inj {issues issues' : List B05ParticipantIssue}
    (hissues : ∀ issue ∈ issues, issue.Coherent) (hissues' : ∀ issue ∈ issues', issue.Coherent)
    (h : issues.flatMap B05ParticipantIssue.fields ++ lastFields participants options =
      issues'.flatMap B05ParticipantIssue.fields ++ lastFields participants' options') :
    issues = issues' ∧ lastFields participants options = lastFields participants' options' := by
  induction issues generalizing issues' with
  | nil =>
      cases issues' with
      | nil => exact ⟨rfl, h⟩
      | cons issue' issues' =>
          rw [List.flatMap_cons, List.append_assoc] at h
          exact absurd h (lastFields_ne_issue (hissues' issue' List.mem_cons_self))
  | cons issue issues ih =>
      cases issues' with
      | nil =>
          rw [List.flatMap_cons, List.append_assoc] at h
          exact absurd h.symm (lastFields_ne_issue (hissues issue List.mem_cons_self))
      | cons issue' issues' =>
          rw [List.flatMap_cons, List.flatMap_cons, List.append_assoc, List.append_assoc] at h
          obtain ⟨rfl, hrest⟩ := issueFields_inj h
          obtain ⟨hlists, hlast⟩ := ih (List.forall_mem_cons.mp hissues).2
            (List.forall_mem_cons.mp hissues').2 hrest
          exact ⟨congrArg (issue :: ·) hlists, hlast⟩

/-- No decision begins what follows the decisions of a participant. -/
theorem issues_ne_decision {issues : List B05ParticipantIssue} {decision : CapabilityDecision} :
    issues.flatMap B05ParticipantIssue.fields ++ lastFields participants options ≠
      decision.fields ++ s := by
  intro heq
  cases issues with
  | nil => exact lastFields_ne_decision heq
  | cons issue issues =>
      simp only [List.flatMap_cons, B05ParticipantIssue.fields, CapabilityDecision.fields,
        List.cons_append, List.cons.injEq] at heq
      -- the first text of a decision is a capability, that of an issue a reason
      have hid := capabilityOf_canonicalId decision.capabilityId
      rw [← heq.1, capabilityOf_reason] at hid
      exact nomatch hid

theorem decisions_inj {decisions decisions' : List CapabilityDecision}
    {issues issues' : List B05ParticipantIssue}
    (hdecisions : ∀ decision ∈ decisions, decision.Coherent)
    (hdecisions' : ∀ decision ∈ decisions', decision.Coherent)
    (h : decisions.flatMap CapabilityDecision.fields ++
        (issues.flatMap B05ParticipantIssue.fields ++ lastFields participants options) =
      decisions'.flatMap CapabilityDecision.fields ++
        (issues'.flatMap B05ParticipantIssue.fields ++ lastFields participants' options')) :
    decisions.map CapabilityDecision.plain = decisions'.map CapabilityDecision.plain ∧
      issues.flatMap B05ParticipantIssue.fields ++ lastFields participants options =
        issues'.flatMap B05ParticipantIssue.fields ++ lastFields participants' options' := by
  induction decisions generalizing decisions' with
  | nil =>
      cases decisions' with
      | nil => exact ⟨rfl, h⟩
      | cons decision' decisions' =>
          rw [List.flatMap_cons, List.append_assoc] at h
          exact absurd h issues_ne_decision
  | cons decision decisions ih =>
      cases decisions' with
      | nil =>
          rw [List.flatMap_cons, List.append_assoc] at h
          exact absurd h.symm issues_ne_decision
      | cons decision' decisions' =>
          obtain ⟨hfirst, hlater⟩ := List.forall_mem_cons.mp hdecisions
          obtain ⟨hfirst', hlater'⟩ := List.forall_mem_cons.mp hdecisions'
          rw [List.flatMap_cons, List.flatMap_cons, List.append_assoc, List.append_assoc] at h
          obtain ⟨hplain, hrest⟩ := decisionFields_inj hfirst hfirst' h
          obtain ⟨hlists, hlast⟩ := ih hlater hlater' hrest
          rw [List.map_cons, List.map_cons, hplain, hlists]
          exact ⟨rfl, hlast⟩

theorem lastFields_cons (participant : B05ParticipantDecision)
    (participants : List B05ParticipantDecision) (options : String) :
    lastFields (participant :: participants) options =
      participant.participantId :: participant.evidenceScope.canonicalId ::
        toString participant.decisiveEqualTimestampGroupCount ::
        (participant.capabilityDecisions.flatMap CapabilityDecision.fields ++
          (participant.issues.flatMap B05ParticipantIssue.fields ++
            lastFields participants options)) := by
  simp only [lastFields, List.flatMap_cons, B05ParticipantDecision.fields, List.cons_append,
    List.append_assoc]

theorem lastFields_ne_cons (participant : B05ParticipantDecision)
    (participants : List B05ParticipantDecision) (options' : String) :
    lastFields [] options ≠ lastFields (participant :: participants) options' := by
  intro h
  rw [lastFields_cons] at h
  exact nomatch (List.cons.inj h).2

/-- The end of a receipt determines its participants, but for empty digests. -/
theorem lastFields_inj (hparticipants : ∀ participant ∈ participants, participant.Coherent)
    (hparticipants' : ∀ participant ∈ participants', participant.Coherent)
    (h : lastFields participants options = lastFields participants' options') :
    participants.map B05ParticipantDecision.plain =
        participants'.map B05ParticipantDecision.plain ∧ options = options' := by
  induction participants generalizing participants' with
  | nil =>
      cases participants' with
      | nil => exact ⟨rfl, (List.cons.inj h).1⟩
      | cons participant' participants' => exact absurd h (lastFields_ne_cons _ _ _)
  | cons participant participants ih =>
      cases participants' with
      | nil => exact absurd h.symm (lastFields_ne_cons _ _ _)
      | cons participant' participants' =>
          obtain ⟨hfirst, hlater⟩ := List.forall_mem_cons.mp hparticipants
          obtain ⟨hfirst', hlater'⟩ := List.forall_mem_cons.mp hparticipants'
          rw [lastFields_cons, lastFields_cons] at h
          simp only [List.cons.injEq] at h
          obtain ⟨hname, hscope, hcount, h⟩ := h
          obtain ⟨hdecisions, h⟩ := decisions_inj hfirst.decisions hfirst'.decisions h
          obtain ⟨hissues, h⟩ := issues_inj hfirst.issues hfirst'.issues h
          obtain ⟨hlists, hoptions⟩ := ih hlater hlater' h
          have hplain : participant.plain = participant'.plain := by
            simp only [B05ParticipantDecision.plain, B05ParticipantDecision.mk.injEq]
            exact ⟨hname, EvidenceScope.canonicalId_inj hscope, hdecisions, toString_nat_inj hcount,
              hissues⟩
          rw [List.map_cons, List.map_cons, hplain, hlists]
          exact ⟨rfl, hoptions⟩

/-- No capability begins the end of a receipt, unless a participant has its name; then what follows
is no end of a receipt. -/
theorem lastFields_ne_capability {id : CapabilityId} {ids : List CapabilityId} :
    lastFields participants options ≠
      id.canonicalId :: (ids.map (·.canonicalId) ++ lastFields participants' options') := by
  intro heq
  rcases lastFields_cases participants options with hlast | ⟨name, scope, count, rest, hlast⟩
  · rw [hlast] at heq
    simp [lastFields] at heq
  · rw [hlast] at heq
    obtain ⟨_, heq⟩ := List.cons.inj heq
    -- a participant may bear the name of a capability, so the texts behind it decide
    cases ids with
    | cons next ids =>
        have hid := capabilityOf_canonicalId next
        rw [List.map_cons, List.cons_append] at heq
        rw [← (List.cons.inj heq).1, capabilityOf_scope] at hid
        exact nomatch hid
    | nil =>
        rcases lastFields_cases participants' options' with
          hlast' | ⟨name', scope', count', rest', hlast'⟩
        · rw [List.map_nil, List.nil_append, hlast'] at heq
          exact nomatch (List.cons.inj heq).2
        · rw [List.map_nil, List.nil_append, hlast'] at heq
          have hdigit := beginsWithDigit_nat count
          rw [(List.cons.inj (List.cons.inj heq).2).1, EvidenceScope.no_digit] at hdigit
          exact Bool.noConfusion hdigit

theorem capabilities_inj {ids ids' : List CapabilityId}
    (h : ids.map (·.canonicalId) ++ lastFields participants options =
      ids'.map (·.canonicalId) ++ lastFields participants' options') :
    ids = ids' ∧ lastFields participants options = lastFields participants' options' := by
  induction ids generalizing ids' with
  | nil =>
      cases ids' with
      | nil => exact ⟨rfl, h⟩
      | cons id' ids' => exact absurd h lastFields_ne_capability
  | cons id ids ih =>
      cases ids' with
      | nil => exact absurd h.symm lastFields_ne_capability
      | cons id' ids' =>
          rw [List.map_cons, List.map_cons, List.cons_append, List.cons_append] at h
          obtain ⟨hid, hrest⟩ := List.cons.inj h
          obtain ⟨rfl, hlast⟩ := ih hrest
          rw [CapabilityId.canonicalId_inj hid]
          exact ⟨rfl, hlast⟩

theorem signals_inj {ids ids' : List CapabilityId}
    (h : ids.map (·.canonicalId) ++ "|" :: s = ids'.map (·.canonicalId) ++ "|" :: t) :
    ids = ids' ∧ s = t := by
  have hids : ∀ ids : List CapabilityId,
      ∀ text ∈ ids.map (·.canonicalId), (capabilityOf text).isSome = true := by
    intro ids text htext
    obtain ⟨id, _, rfl⟩ := List.mem_map.mp htext
    rw [capabilityOf_canonicalId]
    rfl
  have hbar : (capabilityOf "|").isSome = false := by decide
  obtain ⟨hlists, _, hrest⟩ := section_inj (p := fun text => (capabilityOf text).isSome) (hids ids)
    (hids ids') hbar hbar h
  exact ⟨List.map_injective_iff.mpr (fun _ _ => CapabilityId.canonicalId_inj) hlists, hrest⟩

end Lists

end Chronicle.Screens
