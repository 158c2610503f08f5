import Chronicle.Screens.ReceiptDigests

/-!
# Ids and digests as commitments

A receipt that is returned has the texts of its lists where its digest expects them. With a hash
that has no collisions, the ids of intervals and of episodes, the digests of lists of intervals and
the digests of receipts then stand for what they are computed from.
-/

namespace Chronicle.Screens

open Chronicle.Library Chronicle.Library.Bytes Chronicle.Library.TextRows
open Chronicle.Library.StableSort

/-! ## Receipts -/

section Receipts

variable {receipt other : B05ApplicabilityReceiptV1}

theorem decisionFields_plain (decision : CapabilityDecision) :
    decision.plain.fields = decision.fields := by
  simp only [CapabilityDecision.fields, CapabilityDecision.plain, getD_present]

theorem participantFields_plain (participant : B05ParticipantDecision) :
    participant.plain.fields = participant.fields := by
  simp only [B05ParticipantDecision.fields, B05ParticipantDecision.plain, List.flatMap_map,
    decisionFields_plain]

/-- An empty digest is written as an absent one. -/
theorem receiptFields_plain (receipt : B05ApplicabilityReceiptV1) :
    receipt.plain.fields = receipt.fields := by
  simp only [B05ApplicabilityReceiptV1.fields, B05ApplicabilityReceiptV1.plain, lastFields,
    List.flatMap_map, participantFields_plain, getD_present]

/-- The texts of a receipt determine it, but for its own digest and for empty ones. -/
theorem receiptFields_inj (h : receipt.Coherent) (hother : other.Coherent)
    (heq : receipt.fields = other.fields) : receipt.plain = other.plain := by
  simp only [B05ApplicabilityReceiptV1.fields, List.cons_append, List.nil_append,
    List.cons.injEq] at heq
  obtain ⟨hversion, hinput, hartifact, hassignment, hrequested, heffective, hrelation, hexecutable,
    hreason, hdetail, hcheckpoint, hspace, hadapter, hlists⟩ := heq
  obtain ⟨hsignals, hlists⟩ := signals_inj hlists
  obtain ⟨hcapabilities, hlast⟩ := capabilities_inj hlists
  obtain ⟨hparticipants, hoptions⟩ := lastFields_inj h.participants hother.participants hlast
  have hrefusal := optional_inj B05RefusalReason.canonicalId_inj
    B05RefusalReason.canonicalId_ne_empty hreason
  -- an absent detail and an empty one are written alike; the reason tells them apart
  have hsome : receipt.refusalDetail.isSome = other.refusalDetail.isSome := by
    rw [h.refusal, hother.refusal, hrefusal]
  simp only [B05ApplicabilityReceiptV1.plain, B05ApplicabilityReceiptV1.mk.injEq]
  exact ⟨hversion, hinput, present_inj hartifact, present_inj hassignment,
    Strategy.canonicalId_inj hrequested, Strategy.canonicalId_inj heffective,
    ScientificRelation.canonicalId_inj hrelation, flag_inj hexecutable, hrefusal,
    eq_of_getD hsome hdetail, hcheckpoint, hspace, hadapter, hsignals, hcapabilities, hparticipants,
    trivial, hoptions⟩

/-- The texts of receipts agree exactly when the receipts do. -/
theorem receiptFields_eq_iff (h : receipt.Coherent) (hother : other.Coherent) :
    receipt.fields = other.fields ↔ receipt.plain = other.plain := by
  constructor
  · exact receiptFields_inj h hother
  · intro hplain
    rw [← receiptFields_plain receipt, hplain, receiptFields_plain]

end Receipts

/-! ## Returned receipts -/

section Returned

variable {sha256 : List UInt8 → List UInt8} {strategy : Strategy} {input : B05ApplicabilityInput}

theorem beginsLikeDetail_append {first : String} (h : beginsLikeDetail first = true)
    (rest : String) : beginsLikeDetail (first ++ rest) = true := by
  rw [beginsLikeDetail] at h
  rw [beginsLikeDetail, String.toList_append]
  cases hchars : first.toList with
  | nil =>
      rw [hchars] at h
      exact nomatch h
  | cons c chars =>
      rw [hchars] at h
      exact h

theorem simpleIssue_coherent (reason : B05RefusalReason) (id : CapabilityId) :
    (simpleIssue reason id).Coherent := by
  show beginsLikeDetail ("capability=" ++ id.canonicalId) = true
  exact beginsLikeDetail_append (by decide) _

theorem fragmentedIssue_coherent (reason : B05RefusalReason) (row : Option Nat) :
    B05ParticipantIssue.Coherent ⟨reason, "participant_stream_fragmented", row⟩ := by
  show beginsLikeDetail "participant_stream_fragmented" = true
  decide

theorem stateIssue_coherent {state : CapabilityState} {absent unknown : B05ParticipantIssue}
    (habsent : absent.Coherent) (hunknown : unknown.Coherent) :
    ∀ issue ∈ stateIssue state absent unknown, issue.Coherent := by
  intro issue hissue
  cases state with
  | capable => exact absurd hissue List.not_mem_nil
  | absent => exact List.mem_singleton.mp hissue ▸ habsent
  | unknown => exact List.mem_singleton.mp hissue ▸ hunknown

theorem capabilityIssues_coherent (strategy : Strategy) (decisions : List CapabilityDecision)
    (decisiveCount : Nat) :
    ∀ issue ∈ capabilityIssues strategy decisions decisiveCount, issue.Coherent := by
  intro issue hissue
  have hlacking : ∀ {state id absent unknown},
      issue ∈ stateIssue state (simpleIssue absent id) (simpleIssue unknown id) →
        issue.Coherent :=
    fun h => stateIssue_coherent (simpleIssue_coherent _ _) (simpleIssue_coherent _ _) issue h
  simp only [capabilityIssues, List.mem_append] at hissue
  rcases hissue with (((((hissue | hissue) | hissue) | hissue) | hissue) | hissue) | hissue
  · exact hlacking hissue
  · exact hlacking hissue
  · exact hlacking hissue
  · exact hlacking hissue
  · exact stateIssue_coherent (fragmentedIssue_coherent _ _) (simpleIssue_coherent _ _) issue
      hissue
  · obtain ⟨id, _, hissue⟩ := List.mem_flatMap.mp hissue
    exact hlacking hissue
  · split at hissue
    · rw [List.mem_singleton.mp hissue]
      exact simpleIssue_coherent _ _
    · exact absurd hissue List.not_mem_nil

theorem rowIssues_coherent (invalidRows : List Nat) (fragmented : List String)
    (participantId : String) (rows : List RawB05Event) :
    ∀ issue ∈ rowIssues invalidRows fragmented participantId rows, issue.Coherent := by
  intro issue hissue
  have hfound : ∀ {α : Type} {found : Option α} {raised : α → B05ParticipantIssue},
      (∀ a, (raised a).Coherent) → issue ∈ (found.map raised).toList → issue.Coherent := by
    intro α found raised hraised h
    obtain ⟨a, _, rfl⟩ := Option.map_eq_some_iff.mp (Option.mem_toList.mp h)
    exact hraised a
  simp only [rowIssues, List.mem_append] at hissue
  rcases hissue with ((((hissue | hissue) | hissue) | hissue) | hissue) | hissue
  · split at hissue
    · rw [List.mem_singleton.mp hissue]
      show beginsLikeDetail "participant identity or physical source order is not unique" = true
      decide
    · exact absurd hissue List.not_mem_nil
  · refine hfound (fun row => ?_) hissue
    show beginsLikeDetail "physical source-row indices are not unique and increasing" = true
    decide
  · split at hissue
    · exact List.mem_singleton.mp hissue ▸ fragmentedIssue_coherent _ _
    · exact absurd hissue List.not_mem_nil
  · refine hfound (fun row => ?_) hissue
    show beginsLikeDetail "source arm requires separate screen and keyguard event rows" = true
    decide
  · refine hfound (fun row => ?_) hissue
    show beginsLikeDetail "a full-stream row has no physical timestamp" = true
    decide
  · refine hfound (fun row => ?_) hissue
    show beginsLikeDetail "participant timestamps decrease in physical source order" = true
    decide

theorem capabilityDecision_coherent {claims : List CapabilityClaim} {participantId : String}
    {rows : List RawB05Event} {id : CapabilityId} {decision : CapabilityDecision}
    (h : capabilityDecision claims participantId rows id = .ok decision) : decision.Coherent := by
  unfold capabilityDecision at h
  dsimp only at h
  split at h
  · cases h
  · cases h
    show Option.isSome (Option.map _ _) = Option.isSome (Option.map _ _)
    rw [Option.isSome_map, Option.isSome_map]

theorem participantDecision_coherent {claims : List CapabilityClaim} {participantId : String}
    {participant : B05ParticipantDecision}
    (h : participantDecision sha256 strategy input claims participantId = .ok participant) :
    participant.Coherent := by
  unfold participantDecision at h
  dsimp only at h
  obtain ⟨decisions, hdecisions, h⟩ := Stages.bind_eq_ok.mp h
  cases h
  refine ⟨?_, ?_⟩
  · intro decision hdecision
    obtain ⟨id, _, hid⟩ := Stages.mem_of_mapM_ok hdecisions hdecision
    exact capabilityDecision_coherent hid
  · intro issue hissue
    rcases List.mem_append.mp (mem_sortByKey.mp hissue) with hissue | hissue
    · exact rowIssues_coherent _ _ _ _ issue hissue
    · exact capabilityIssues_coherent _ _ _ issue hissue

theorem fragmentedReceipt_coherent (input : B05ApplicabilityInput) (strategy : Strategy) :
    (input.fragmentedReceipt strategy).Coherent := by
  refine ⟨rfl, ?_⟩
  intro participant hparticipant
  obtain ⟨participantId, _, rfl⟩ := List.mem_map.mp hparticipant
  refine ⟨fun decision hdecision => absurd hdecision List.not_mem_nil, ?_⟩
  intro issue hissue
  dsimp only at hissue
  split at hissue
  · exact List.mem_singleton.mp hissue ▸ fragmentedIssue_coherent _ _
  · exact absurd hissue List.not_mem_nil

theorem chronicleReceipt_coherent (input : B05ApplicabilityInput) :
    input.chronicleReceipt.Coherent := by
  refine ⟨rfl, ?_⟩
  intro participant hparticipant
  obtain ⟨participantId, _, rfl⟩ := List.mem_map.mp hparticipant
  exact ⟨fun decision hdecision => absurd hdecision List.not_mem_nil,
    fun issue hissue => absurd hissue List.not_mem_nil⟩

theorem sourceReceipt_coherent {evidence : ParsedCapabilityEvidence} {claims : List CapabilityClaim}
    {participants : List B05ParticipantDecision}
    (h : input.participantIds.mapM (participantDecision sha256 strategy input claims) =
      .ok participants) :
    (sourceReceipt strategy input evidence participants).Coherent := by
  refine ⟨?_, ?_⟩
  · show Option.isSome (Option.map _ _) = Option.isSome (Option.map _ _)
    rw [Option.isSome_map, Option.isSome_map]
  · intro participant hparticipant
    obtain ⟨participantId, _, hdecision⟩ := Stages.mem_of_mapM_ok h hparticipant
    exact participantDecision_coherent hdecision

/-- A returned receipt is coherent, and its digest is the hash of its texts. -/
theorem resolveB05Applicability_spec {receipt : B05ApplicabilityReceiptV1}
    (h : resolveB05Applicability sha256 strategy input = .ok receipt) :
    receipt.Coherent ∧
      receipt.capabilityResolutionDigest = sha256Wire sha256 (rowBytes receipt.fields) := by
  have hsealed : ∀ draft : B05ApplicabilityReceiptV1, draft.Coherent →
      draft.sealed sha256 = receipt → receipt.Coherent ∧
        receipt.capabilityResolutionDigest = sha256Wire sha256 (rowBytes receipt.fields) := by
    intro draft hdraft hreceipt
    subst hreceipt
    exact ⟨⟨hdraft.refusal, hdraft.participants⟩, digest_eq_rowBytes sha256 draft⟩
  -- one case for each way the resolution returns: a split stream, the native rule, no evidence, no
  -- claims, and the decisions on the participants
  unfold resolveB05Applicability at h
  split at h
  · exact hsealed _ (fragmentedReceipt_coherent input strategy) (Except.ok.inj h)
  · split at h
    · exact hsealed _ (chronicleReceipt_coherent input) (Except.ok.inj h)
    · split at h
      · refine hsealed _ ⟨rfl, ?_⟩ (Except.ok.inj h)
        exact fun participant hparticipant => absurd hparticipant List.not_mem_nil
      · dsimp only at h
        split at h
        · refine hsealed _ ⟨rfl, ?_⟩ (Except.ok.inj h)
          exact fun participant hparticipant => absurd hparticipant List.not_mem_nil
        · obtain ⟨participants, hparticipants, h⟩ := Stages.bind_eq_ok.mp h
          exact hsealed _ (sourceReceipt_coherent hparticipants) (Except.ok.inj h)

/-- Returned receipts have one digest exactly when they are equal apart from it, where an absent
digest of evidence counts as an empty one. -/
theorem capabilityResolutionDigest_eq_iff {strategy' : Strategy} {input' : B05ApplicabilityInput}
    {receipt receipt' : B05ApplicabilityReceiptV1} (hsha : Function.Injective sha256)
    (h : resolveB05Applicability sha256 strategy input = .ok receipt)
    (h' : resolveB05Applicability sha256 strategy' input' = .ok receipt')
    (hfits : Fits receipt.fields) (hfits' : Fits receipt'.fields) :
    receipt.capabilityResolutionDigest = receipt'.capabilityResolutionDigest ↔
      receipt.plain = receipt'.plain := by
  obtain ⟨hcoherent, hdigest⟩ := resolveB05Applicability_spec h
  obtain ⟨hcoherent', hdigest'⟩ := resolveB05Applicability_spec h'
  rw [hdigest, hdigest', ← receiptFields_eq_iff hcoherent hcoherent']
  constructor
  · exact sha256Wire_rowBytes_inj hsha hfits hfits'
  · exact fun heq => heq ▸ rfl

end Returned

/-! ## Commitments -/

/-- With a hash that has no collisions, each id and each digest stands for what it is computed
from. -/
theorem ids_and_digests_commit (sha256 : List UInt8 → List UInt8)
    (hsha : Function.Injective sha256) :
    (∀ interval other, BuiltInterval sha256 interval → BuiltInterval sha256 other →
      (interval.screenIntervalId = other.screenIntervalId ↔ interval = other)) ∧
    (∀ intervals others : List ScreenIntervalEvidence,
      (∀ interval ∈ intervals, BuiltInterval sha256 interval) →
      (∀ interval ∈ others, BuiltInterval sha256 interval) →
      (screenIntervalDigest sha256 intervals = screenIntervalDigest sha256 others ↔
        intervals = others)) ∧
    (∀ input input' : BoundSchoedelProseInput, input.screenIntervals = input'.screenIntervals →
      (∀ interval ∈ input.screenIntervals, BuiltInterval sha256 interval) →
      ∀ episode ∈ (reconstructBoundSchoedelProse sha256 input).episodes,
      ∀ other ∈ (reconstructBoundSchoedelProse sha256 input').episodes,
      Fits episode.fields → Fits other.fields →
      (episode.episodeId = other.episodeId ↔ episode = other)) ∧
    (∀ strategy strategy' input input' receipt receipt',
      resolveB05Applicability sha256 strategy input = .ok receipt →
      resolveB05Applicability sha256 strategy' input' = .ok receipt' →
      Fits receipt.fields → Fits receipt'.fields →
      (receipt.capabilityResolutionDigest = receipt'.capabilityResolutionDigest ↔
        receipt.plain = receipt'.plain)) := by
  refine ⟨?_, ?_, ?_, ?_⟩
  · intro interval other h hother
    exact ⟨h.id_inj hsha hother, congrArg _⟩
  · intro intervals others h hothers
    exact ⟨screenIntervalDigest_inj hsha (fun interval hinterval => (h interval hinterval).fits)
      (fun interval hinterval => (hothers interval hinterval).fits), congrArg _⟩
  · intro input input' hsame hintervals episode hepisode other hother hfits hfits'
    have hover := episodeOver_of_mem hepisode
    have hover' := episodeOver_of_mem hother
    rw [← hsame] at hover'
    exact ⟨hover.id_inj hsha hintervals hover' hfits hfits', congrArg _⟩
  · intro strategy strategy' input input' receipt receipt' h h' hfits hfits'
    exact capabilityResolutionDigest_eq_iff hsha h h' hfits hfits'

/-! ## An empty digest -/

/-- An interval of one row, with the bytes themselves in place of their hash. -/
def openInterval (startRow : Nat) : ScreenIntervalEvidence :=
  makeScreenIntervalFromParts (fun bytes => bytes) "P1" .zhu2018UnlockLockV1 .session 10 none
    startRow none [startRow] [] .rightCensoredObservationWindow

/-- An input without evidence. -/
def unevidencedInput (evidenceAssignmentDigest : Option String) : B05ApplicabilityInput where
  rawInputSha256 := "sha256:00"
  rawEvents := []
  evidence := none
  evidenceAssignmentDigest := evidenceAssignmentDigest
  optionsDigest := "options"
  selectionWasExplicit := true
  fragmentedParticipants := []

/-- The receipt of that input. -/
def unevidencedReceipt (sha256 : List UInt8 → List UInt8)
    (evidenceAssignmentDigest : Option String) : B05ApplicabilityReceiptV1 :=
  ((unevidencedInput evidenceAssignmentDigest).refusedWithoutParticipants .zhu2018UnlockLockV1
    .inputCapabilityEvidenceAbsent
    "support role input_capability_evidence_file is absent").sealed sha256

theorem openInterval_inj {startRow startRow' : Nat}
    (h : openInterval startRow = openInterval startRow') : startRow = startRow' :=
  congrArg ScreenIntervalEvidence.startBoundarySourceRow h

/-- The id is about twice as long as what it is computed from. -/
theorem fits_openInterval {startRow : Nat}
    (hidentity : ((openInterval startRow).identityFields.map fun text =>
      8 + text.utf8ByteSize).sum < 2 ^ 32)
    (hfields : Fits (openInterval startRow).fields.tail) : Fits (openInterval startRow).fields := by
  have hid : (openInterval startRow).screenIntervalId = "urn:chronicle:screen-interval:" ++
      ("sha256:" ++ hexEncode (rowBytes (openInterval startRow).identityFields)) :=
    (makeScreenIntervalFromParts_spec ⟨_, _, _, _, _, _, _, _, _, _, rfl⟩).1
  have hprefix : ("urn:chronicle:screen-interval:" : String).utf8ByteSize = 30 ∧
      ("sha256:" : String).utf8ByteSize = 7 := by decide
  have hhex := length_utf8_le (hexEncode (rowBytes (openInterval startRow).identityFields))
  rw [length_utf8, length_hexEncode, length_rowBytes] at hhex
  refine List.forall_mem_cons.mpr ⟨?_, hfields⟩
  rw [length_utf8, hid, String.utf8ByteSize_append, String.utf8ByteSize_append, hprefix.1,
    hprefix.2]
  omega

theorem builtInterval_openInterval {startRow : Nat}
    (hidentity : Fits (openInterval startRow).identityFields)
    (hlength : ((openInterval startRow).identityFields.map fun text =>
      8 + text.utf8ByteSize).sum < 2 ^ 32)
    (hfields : Fits (openInterval startRow).fields.tail) :
    BuiltInterval (fun bytes => bytes) (openInterval startRow) :=
  ⟨⟨_, _, _, _, _, _, _, _, _, _, rfl⟩, hidentity, fits_openInterval hlength hfields⟩

theorem resolveB05Applicability_unevidenced (sha256 : List UInt8 → List UInt8)
    (evidenceAssignmentDigest : Option String) :
    resolveB05Applicability sha256 .zhu2018UnlockLockV1
        (unevidencedInput evidenceAssignmentDigest) =
      .ok (unevidencedReceipt sha256 evidenceAssignmentDigest) := rfl

/-- The receipts differ in one of the texts that are hashed. -/
theorem fits_unevidencedReceipt (sha256 : List UInt8 → List UInt8)
    {evidenceAssignmentDigest : Option String} (h : Fits [evidenceAssignmentDigest.getD ""]) :
    Fits (unevidencedReceipt sha256 evidenceAssignmentDigest).fields := by
  have hothers : Fits (unevidencedReceipt (fun bytes => bytes) none).fields := by decide +kernel
  have hset : (unevidencedReceipt sha256 evidenceAssignmentDigest).fields =
      (unevidencedReceipt (fun bytes => bytes) none).fields.set 3
        (evidenceAssignmentDigest.getD "") := rfl
  intro text htext
  rw [hset] at htext
  rcases List.mem_or_eq_of_mem_set htext with hmem | heq
  · exact hothers text hmem
  · exact h text (List.mem_singleton.mpr heq)

theorem evidenceAssignmentDigest_plain (sha256 : List UInt8 → List UInt8)
    (evidenceAssignmentDigest : Option String) :
    (unevidencedReceipt sha256 evidenceAssignmentDigest).plain.evidenceAssignmentDigest =
      present evidenceAssignmentDigest := rfl

/-- The ids of two intervals and the digests of two receipts, with the bytes themselves in place of
their hash. -/
theorem ids_and_digests_commit_open :
    ((openInterval 1).screenIntervalId ≠ (openInterval 2).screenIntervalId ∧
      screenIntervalDigest (fun bytes => bytes) [openInterval 1] ≠
        screenIntervalDigest (fun bytes => bytes) [openInterval 2]) ∧
    (unevidencedReceipt (fun bytes => bytes) none).capabilityResolutionDigest ≠
      (unevidencedReceipt (fun bytes => bytes) (some "a")).capabilityResolutionDigest := by
  obtain ⟨hids, hdigests, _, hreceipts⟩ :=
    ids_and_digests_commit (fun bytes => bytes) Function.injective_id
  have hfirst : BuiltInterval (fun bytes => bytes) (openInterval 1) :=
    builtInterval_openInterval (by decide +kernel) (by decide +kernel) (by decide +kernel)
  have hsecond : BuiltInterval (fun bytes => bytes) (openInterval 2) :=
    builtInterval_openInterval (by decide +kernel) (by decide +kernel) (by decide +kernel)
  refine ⟨⟨?_, ?_⟩, ?_⟩
  · intro h
    exact absurd (openInterval_inj ((hids _ _ hfirst hsecond).mp h)) (by decide)
  · intro h
    have hlists := (hdigests _ _ (List.forall_mem_singleton.mpr hfirst)
      (List.forall_mem_singleton.mpr hsecond)).mp h
    exact absurd (openInterval_inj (List.cons.inj hlists).1) (by decide)
  · intro h
    have hplain := (hreceipts _ _ _ _ _ _ (resolveB05Applicability_unevidenced _ none)
      (resolveB05Applicability_unevidenced _ (some "a")) (fits_unevidencedReceipt _ (by decide))
      (fits_unevidencedReceipt _ (by decide))).mp h
    have hassignment := congrArg B05ApplicabilityReceiptV1.evidenceAssignmentDigest hplain
    rw [evidenceAssignmentDigest_plain, evidenceAssignmentDigest_plain] at hassignment
    exact absurd hassignment (by decide)

/-- An absent assignment digest and an empty one are written alike: the receipts differ, and their
digests do not. -/
theorem digest_of_empty_assignment :
    ¬ ∀ sha256 : List UInt8 → List UInt8, Function.Injective sha256 →
      ∀ strategy strategy' input input' receipt receipt',
        resolveB05Applicability sha256 strategy input = .ok receipt →
        resolveB05Applicability sha256 strategy' input' = .ok receipt' →
        Fits receipt.fields → Fits receipt'.fields →
        (receipt.capabilityResolutionDigest = receipt'.capabilityResolutionDigest ↔
          { receipt with capabilityResolutionDigest := "" } =
            { receipt' with capabilityResolutionDigest := "" }) := by
  intro h
  have hreceipts := h (fun bytes => bytes) Function.injective_id .zhu2018UnlockLockV1
    .zhu2018UnlockLockV1 (unevidencedInput none) (unevidencedInput (some ""))
    (unevidencedReceipt _ none) (unevidencedReceipt _ (some "")) rfl rfl
    (fits_unevidencedReceipt _ (by decide)) (fits_unevidencedReceipt _ (by decide))
  exact absurd (congrArg B05ApplicabilityReceiptV1.evidenceAssignmentDigest (hreceipts.mp rfl))
    (by decide)

end Chronicle.Screens
