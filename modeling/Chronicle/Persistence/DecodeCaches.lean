import Chronicle.Library.DecodeCache
import Chronicle.Persistence.Bases

/-!
# The decode caches

Each decoder keeps the base it decoded last. Bytes equal to the encoded ones, and verified bytes with
the same payload digest, are answered from there. The second shortcut skips the checks of the header
keys and of the declared size.
-/

namespace Chronicle.Persistence

open Chronicle.Library.Bytes Chronicle.Library.DecodeCache

/-! ## What a verified envelope decodes to -/

section Format

variable {Base : Type} {compression : Compression} {format : BaseFormat Base}
variable {bytes bytes' : List UInt8} {header header' : VerifiedHeader} {base : Base}

theorem verify_eq_ok (h : format.verify compression bytes = .ok header) :
    header = ⟨format.namedKeys bytes, compression.blake3 (format.payload bytes),
      format.declaredBytes bytes⟩ := by
  unfold BaseFormat.verify at h
  split at h
  · cases h
  · split at h
    · cases h
    · split at h
      · cases h
      · split at h
        · cases h
        · exact (Except.ok.inj h).symm

theorem length_namedKeys (format : BaseFormat Base) (bytes : List UInt8) :
    (format.namedKeys bytes).length = format.headerKeys.length := by
  rw [BaseFormat.namedKeys, List.length_map, List.length_range]

theorem checkHeaderKeys_eq_ok {name : String} {headerKeys : List (HeaderKey Base)}
    {keys : List (List UInt8)} (hlength : keys.length = headerKeys.length) :
    checkHeaderKeys name base headerKeys keys = .ok () ↔
      headerKeys.map (fun headerKey => headerKey.ofBase base) = keys.map .ok := by
  induction headerKeys generalizing keys with
  | nil =>
      obtain rfl := List.length_eq_zero_iff.mp hlength
      exact iff_of_true rfl rfl
  | cons headerKey headerKeys ih =>
      cases keys with
      | nil => cases hlength
      | cons key keys =>
          rw [checkHeaderKeys, List.map_cons, List.map_cons, List.cons.injEq,
            ← ih (Nat.succ.inj hlength)]
          cases hkey : headerKey.ofBase base with
          | error error =>
              refine iff_of_false (fun h => ?_) (fun h => ?_)
              · cases h
              · cases h.1
          | ok expected =>
              by_cases hsame : expected = key
              · simp [Bind.bind, Except.bind, hsame]
              · simp [Bind.bind, Except.bind, hsame]

/-- A verified envelope decodes to the base that its payload holds and its header names. -/
theorem decodeVerified_eq_ok (hverify : format.verify compression bytes = .ok header) :
    format.decodeVerified compression bytes header = .ok base ↔
      ∃ decoded, compression.decompress (format.payload bytes) (format.declaredBytes bytes) =
        .ok decoded ∧ format.openBase decoded = .ok base ∧
        format.headerKeys.map (fun headerKey => headerKey.ofBase base) =
          (format.namedKeys bytes).map .ok := by
  rw [verify_eq_ok hverify, BaseFormat.decodeVerified]
  dsimp only
  cases hdecompress : compression.decompress (format.payload bytes)
      (format.declaredBytes bytes) with
  | error error => simp [mapError, Bind.bind, Except.bind]
  | ok decoded =>
      cases hopen : format.openBase decoded with
      | error error => simp [mapError, Bind.bind, Except.bind, hopen]
      | ok opened =>
          have hcheck : checkHeaderKeys format.name opened format.headerKeys
              (format.namedKeys bytes) = .ok () ↔ _ :=
            checkHeaderKeys_eq_ok (length_namedKeys format bytes)
          cases hkeys : checkHeaderKeys format.name opened format.headerKeys
              (format.namedKeys bytes) with
          | error error =>
              simp only [mapError, Bind.bind, Except.bind, hopen, hkeys]
              refine iff_of_false (fun h => by cases h) ?_
              rintro ⟨decoded', hdecoded, hopened, hnamed⟩
              obtain rfl := Except.ok.inj hdecoded
              obtain rfl := Except.ok.inj (hopen.symm.trans hopened)
              rw [hcheck.mpr hnamed] at hkeys
              cases hkeys
          | ok done =>
              simp only [mapError, Bind.bind, Except.bind, hopen, hkeys]
              constructor
              · intro h
                obtain rfl := Except.ok.inj h
                exact ⟨decoded, rfl, hopen, hcheck.mp hkeys⟩
              · rintro ⟨decoded', hdecoded, hopened, -⟩
                obtain rfl := Except.ok.inj hdecoded
                rw [← hopened, hopen]

/-- The declared size only bounds the buffer: whatever it is, the payload decompresses to one
text. -/
def SizeIsBound (compression : Compression) : Prop :=
  ∀ payload size size' decoded decoded', compression.decompress payload size = .ok decoded →
    compression.decompress payload size' = .ok decoded' → decoded = decoded'

/-- The second envelope names the keys of the first and a size its payload decompresses with. -/
def SameEnvelope (compression : Compression) (format : BaseFormat Base)
    (bytes bytes' : List UInt8) : Prop :=
  format.namedKeys bytes' = format.namedKeys bytes ∧
    ∃ decoded, compression.decompress (format.payload bytes') (format.declaredBytes bytes') =
      .ok decoded

/-- Two verified envelopes around one payload decode to one base exactly when the second is like
the first, which is accepted. -/
theorem decodeVerified_of_samePayload (hsize : SizeIsBound compression)
    (hverify : format.verify compression bytes = .ok header)
    (hdecode : format.decodeVerified compression bytes header = .ok base)
    (hverify' : format.verify compression bytes' = .ok header')
    (hpayload : format.payload bytes' = format.payload bytes) :
    format.decodeVerified compression bytes' header' = .ok base ↔
      SameEnvelope compression format bytes bytes' := by
  obtain ⟨decoded, hdecompress, hopen, hkeys⟩ := (decodeVerified_eq_ok hverify).mp hdecode
  rw [decodeVerified_eq_ok hverify']
  have hinj : Function.Injective (Except.ok : List UInt8 → Except String (List UInt8)) :=
    fun _ _ => Except.ok.inj
  constructor
  · rintro ⟨decoded', hdecompress', -, hkeys'⟩
    exact ⟨List.map_injective_iff.mpr hinj (hkeys'.symm.trans hkeys), decoded', hdecompress'⟩
  · rintro ⟨hnamed, decoded', hdecompress'⟩
    refine ⟨decoded', hdecompress', ?_, by rw [hnamed, hkeys]⟩
    rw [hpayload] at hdecompress'
    rw [← hsize _ _ _ _ _ hdecompress hdecompress', hopen]

end Format

/-! ## The cached decoders -/

section Caches

variable {Rows Persisted Base : Type}
variable (compression : Compression) (reviewCodec : ReviewCodec Rows)
variable (reconstructionCodec : ReconstructionCodec Persisted Base)

/-- The review decoder. -/
def reviewDecoder : Decoder (List UInt8) VerifiedHeader (List UInt8) String (ReviewBase Rows) where
  verify := verifyReviewBasePayload reviewCodec compression
  digest header := header.payloadDigest
  decode := decodeVerifiedReviewBaseBytes reviewCodec compression

/-- The reconstruction decoder; a payload store is known by a number. -/
def reconstructionDecoder :
    Decoder (Nat × List UInt8) (Nat × VerifiedHeader) (Nat × List UInt8) String Base where
  verify request := (verifyReconstructionBasePayload reconstructionCodec compression
    request.2).map fun header => (request.1, header)
  digest header := (header.1, header.2.payloadDigest)
  decode request header :=
    decodeVerifiedReconstructionBaseBytes reconstructionCodec compression request.2 header.2

/-- `REVIEW_BASE_DECODE_CACHE` -/
abbrev ReviewBaseDecodeCache (Rows : Type) :=
  Option (Entry (List UInt8) (List UInt8) (ReviewBase Rows))

/-- `RECONSTRUCTION_BASE_DECODE_CACHE` -/
abbrev ReconstructionBaseDecodeCache (Base : Type) :=
  Option (Entry (Nat × List UInt8) (Nat × List UInt8) Base)

/-- `decode_review_base_cached` -/
def decodeReviewBaseCached (cache : ReviewBaseDecodeCache Rows) (bytes : List UInt8) :
    Except String (ReviewBase Rows) × ReviewBaseDecodeCache Rows :=
  (reviewDecoder compression reviewCodec).cached cache bytes

/-- `decode_reconstruction_base_cached` -/
def decodeReconstructionBaseCached (cache : ReconstructionBaseDecodeCache Base) (store : Nat)
    (bytes : List UInt8) : Except String Base × ReconstructionBaseDecodeCache Base :=
  (reconstructionDecoder compression reconstructionCodec).cached cache (store, bytes)

/-- A call of one of the cached decoders. -/
inductive DecodeCall where
  | review (bytes : List UInt8)
  | reconstruction (store : Nat) (bytes : List UInt8)

/-- The two caches of a thread. -/
structure DecodeCaches (Rows Base : Type) where
  review : ReviewBaseDecodeCache Rows := none
  reconstruction : ReconstructionBaseDecodeCache Base := none

/-- One call. -/
def serve (caches : DecodeCaches Rows Base) :
    DecodeCall → Except String (ReviewBase Rows ⊕ Base) × DecodeCaches Rows Base
  | .review bytes =>
      let answer := decodeReviewBaseCached compression reviewCodec caches.review bytes
      (answer.1.map .inl, { caches with review := answer.2 })
  | .reconstruction store bytes =>
      let answer := decodeReconstructionBaseCached compression reconstructionCodec
        caches.reconstruction store bytes
      (answer.1.map .inr, { caches with reconstruction := answer.2 })

/-- The answers of a sequence of calls. -/
def serveAll (caches : DecodeCaches Rows Base) :
    List DecodeCall → List (Except String (ReviewBase Rows ⊕ Base))
  | [] => []
  | call :: calls =>
      (serve compression reviewCodec reconstructionCodec caches call).1 ::
        serveAll (serve compression reviewCodec reconstructionCodec caches call).2 calls

/-- The answer with empty caches. -/
def serveFresh (call : DecodeCall) : Except String (ReviewBase Rows ⊕ Base) :=
  (serve compression reviewCodec reconstructionCodec {} call).1

/-- Verified bytes around a cached payload repeat the envelope of the cached bytes. -/
def RepeatsEnvelope {Base : Type} (format : BaseFormat Base) (cached bytes : List UInt8) : Prop :=
  cached ≠ bytes → ∀ header, format.verify compression bytes = .ok header →
    format.payload bytes = format.payload cached → SameEnvelope compression format cached bytes

/-- The call brings no new envelope for a cached payload. -/
def BringsNoNewEnvelope (caches : DecodeCaches Rows Base) : DecodeCall → Prop
  | .review bytes => ∀ entry ∈ caches.review,
      RepeatsEnvelope compression (reviewFormat reviewCodec) entry.input bytes
  | .reconstruction store bytes => ∀ entry ∈ caches.reconstruction, entry.input.1 = store →
      RepeatsEnvelope compression (reconstructionFormat reconstructionCodec) entry.input.2 bytes

/-- No call of the sequence brings a new envelope for the payload cached at that moment. -/
def NoNewEnvelopes (caches : DecodeCaches Rows Base) : List DecodeCall → Prop
  | [] => True
  | call :: calls =>
      BringsNoNewEnvelope compression reviewCodec reconstructionCodec caches call ∧
        NoNewEnvelopes (serve compression reviewCodec reconstructionCodec caches call).2 calls

/-- The payload of a call. -/
def DecodeCall.payload : DecodeCall → List UInt8
  | .review bytes => (reviewFormat reviewCodec).payload bytes
  | .reconstruction _ bytes => (reconstructionFormat reconstructionCodec).payload bytes

end Caches

section Runs

variable {Rows Persisted Base : Type}
variable {compression : Compression} {reviewCodec : ReviewCodec Rows}
variable {reconstructionCodec : ReconstructionCodec Persisted Base}
variable {caches : DecodeCaches Rows Base} {payloads : Set (List UInt8)}

/-- Both caches hold decoded bytes, with payloads from the given set. -/
structure CachesSound (compression : Compression) (reviewCodec : ReviewCodec Rows)
    (reconstructionCodec : ReconstructionCodec Persisted Base) (payloads : Set (List UInt8))
    (caches : DecodeCaches Rows Base) : Prop where
  review : (reviewDecoder compression reviewCodec).Sound caches.review
  reconstruction : (reconstructionDecoder compression reconstructionCodec).Sound
    caches.reconstruction
  reviewPayload : ∀ entry ∈ caches.review, (reviewFormat reviewCodec).payload entry.input ∈ payloads
  reconstructionPayload : ∀ entry ∈ caches.reconstruction,
    (reconstructionFormat reconstructionCodec).payload entry.input.2 ∈ payloads

/-- The digest of a cached payload is the digest of that payload only. -/
theorem agrees_review_iff (hsize : SizeIsBound compression)
    (hinj : Set.InjOn compression.blake3 payloads)
    (h : CachesSound compression reviewCodec reconstructionCodec payloads caches)
    {bytes : List UInt8} (hpayload : (reviewFormat reviewCodec).payload bytes ∈ payloads) :
    (reviewDecoder compression reviewCodec).Agrees caches.review bytes ↔
      ∀ entry ∈ caches.review,
        RepeatsEnvelope compression (reviewFormat reviewCodec) entry.input bytes := by
  refine forall₂_congr fun entry hentry => forall_congr' fun _ => forall₂_congr fun header hok => ?_
  obtain ⟨header', hverify, hdigest, hdecode⟩ := h.review entry hentry
  have hdigests : entry.digest = header.payloadDigest ↔
      (reviewFormat reviewCodec).payload bytes = (reviewFormat reviewCodec).payload entry.input := by
    rw [← hdigest]
    change header'.payloadDigest = header.payloadDigest ↔ _
    rw [verify_eq_ok hverify, verify_eq_ok hok]
    exact (hinj.eq_iff (h.reviewPayload entry hentry) hpayload).trans eq_comm
  exact imp_congr_ctx hdigests fun hsame =>
    decodeVerified_of_samePayload hsize hverify hdecode hok hsame

theorem verify_reconstructionDecoder {request : Nat × List UInt8} {header : Nat × VerifiedHeader} :
    (reconstructionDecoder compression reconstructionCodec).verify request = .ok header ↔
      header.1 = request.1 ∧ (reconstructionFormat reconstructionCodec).verify compression
        request.2 = .ok header.2 := by
  change Except.map _ (verifyReconstructionBasePayload reconstructionCodec compression request.2) =
    .ok header ↔ _
  unfold verifyReconstructionBasePayload
  cases (reconstructionFormat reconstructionCodec).verify compression request.2 with
  | error error =>
      refine iff_of_false (fun h => by cases h) fun h => ?_
      cases h.2
  | ok verified =>
      constructor
      · intro h
        obtain rfl := Except.ok.inj h
        exact ⟨rfl, rfl⟩
      · rintro ⟨hstore, hverified⟩
        obtain rfl := Except.ok.inj hverified
        rw [← hstore]
        rfl

theorem agrees_reconstruction_iff (hsize : SizeIsBound compression)
    (hinj : Set.InjOn compression.blake3 payloads)
    (h : CachesSound compression reviewCodec reconstructionCodec payloads caches) {store : Nat}
    {bytes : List UInt8}
    (hpayload : (reconstructionFormat reconstructionCodec).payload bytes ∈ payloads) :
    (reconstructionDecoder compression reconstructionCodec).Agrees caches.reconstruction
        (store, bytes) ↔
      ∀ entry ∈ caches.reconstruction, entry.input.1 = store →
        RepeatsEnvelope compression (reconstructionFormat reconstructionCodec) entry.input.2
          bytes := by
  refine forall₂_congr fun entry hentry => ?_
  obtain ⟨header', hverify, hdigest, hdecode⟩ := h.reconstruction entry hentry
  obtain ⟨hstore', hverify'⟩ := verify_reconstructionDecoder.mp hverify
  -- a digest without collisions names its payload
  have hdigests : ∀ header : VerifiedHeader,
      (reconstructionFormat reconstructionCodec).verify compression bytes = .ok header →
      (entry.digest = (store, header.payloadDigest) ↔ entry.input.1 = store ∧
        (reconstructionFormat reconstructionCodec).payload bytes =
          (reconstructionFormat reconstructionCodec).payload entry.input.2) := by
    intro header hok
    rw [← hdigest]
    change (header'.1, header'.2.payloadDigest) = (store, header.payloadDigest) ↔ _
    rw [Prod.mk.injEq, hstore', verify_eq_ok hverify', verify_eq_ok hok]
    exact and_congr_right fun _ =>
      (hinj.eq_iff (h.reconstructionPayload entry hentry) hpayload).trans eq_comm
  have hdecodes : ∀ header : VerifiedHeader,
      (reconstructionFormat reconstructionCodec).verify compression bytes = .ok header →
      (reconstructionFormat reconstructionCodec).payload bytes =
        (reconstructionFormat reconstructionCodec).payload entry.input.2 →
      (decodeVerifiedReconstructionBaseBytes reconstructionCodec compression bytes header =
        .ok entry.value ↔
      SameEnvelope compression (reconstructionFormat reconstructionCodec) entry.input.2 bytes) :=
    fun header hok hsame => decodeVerified_of_samePayload hsize hverify' hdecode hok hsame
  constructor
  · intro hagrees hstore hne header hok hsame
    refine (hdecodes header hok hsame).mp ?_
    exact hagrees (fun heq => hne (congrArg Prod.snd heq)) (store, header)
      (verify_reconstructionDecoder.mpr ⟨rfl, hok⟩) ((hdigests header hok).mpr ⟨hstore, hsame⟩)
  · intro hrepeats hne header hok hdigestEq
    obtain ⟨hstore, hok⟩ := verify_reconstructionDecoder.mp hok
    change entry.digest = (header.1, header.2.payloadDigest) at hdigestEq
    rw [hstore] at hdigestEq
    obtain ⟨hsameStore, hsame⟩ := (hdigests header.2 hok).mp hdigestEq
    refine (hdecodes header.2 hok hsame).mpr (hrepeats hsameStore ?_ header.2 hok hsame)
    exact fun heq => hne (Prod.ext hsameStore heq)

theorem map_inj {α β ε : Type} {f : α → β} (hf : Function.Injective f) {x y : Except ε α} :
    x.map f = y.map f ↔ x = y := by
  cases x <;> cases y <;> simp [Except.map, hf.eq_iff]

/-- One call answers as with empty caches exactly when it brings no new envelope. -/
theorem CachesSound.serve_iff (hsize : SizeIsBound compression)
    (hinj : Set.InjOn compression.blake3 payloads)
    (h : CachesSound compression reviewCodec reconstructionCodec payloads caches)
    {call : DecodeCall} (hpayload : call.payload reviewCodec reconstructionCodec ∈ payloads) :
    (serve compression reviewCodec reconstructionCodec caches call).1 =
        serveFresh compression reviewCodec reconstructionCodec call ↔
      BringsNoNewEnvelope compression reviewCodec reconstructionCodec caches call := by
  cases call with
  | review bytes =>
      have hempty := cached_none (reviewDecoder compression reviewCodec) bytes
      rw [serve, serveFresh, serve, map_inj Sum.inl_injective, decodeReviewBaseCached,
        decodeReviewBaseCached, hempty, h.review.cached_eq_iff]
      exact agrees_review_iff hsize hinj h hpayload
  | reconstruction store bytes =>
      have hempty := cached_none (reconstructionDecoder compression reconstructionCodec)
        (store, bytes)
      rw [serve, serveFresh, serve, map_inj Sum.inr_injective, decodeReconstructionBaseCached,
        decodeReconstructionBaseCached, hempty, h.reconstruction.cached_eq_iff]
      exact agrees_reconstruction_iff hsize hinj h hpayload

/-- A call leaves the caches sound. -/
theorem CachesSound.serve (h : CachesSound compression reviewCodec reconstructionCodec payloads
    caches) {call : DecodeCall} (hpayload : call.payload reviewCodec reconstructionCodec ∈ payloads) :
    CachesSound compression reviewCodec reconstructionCodec payloads
      (serve compression reviewCodec reconstructionCodec caches call).2 := by
  cases call with
  | review bytes =>
      refine ⟨h.review.cached, h.reconstruction, fun entry hentry => ?_, h.reconstructionPayload⟩
      rcases cached_input hentry with hold | hnew
      · exact h.reviewPayload entry hold
      · rw [hnew]
        exact hpayload
  | reconstruction store bytes =>
      refine ⟨h.review, h.reconstruction.cached, h.reviewPayload, fun entry hentry => ?_⟩
      rcases cached_input hentry with hold | hnew
      · exact h.reconstructionPayload entry hold
      · rw [hnew]
        exact hpayload

/-- A run from any sound caches. -/
theorem serveAll_eq_iff (hsize : SizeIsBound compression)
    (hinj : Set.InjOn compression.blake3 payloads)
    (h : CachesSound compression reviewCodec reconstructionCodec payloads caches)
    {calls : List DecodeCall}
    (hpayloads : ∀ call ∈ calls, call.payload reviewCodec reconstructionCodec ∈ payloads) :
    serveAll compression reviewCodec reconstructionCodec caches calls =
        calls.map (serveFresh compression reviewCodec reconstructionCodec) ↔
      NoNewEnvelopes compression reviewCodec reconstructionCodec caches calls := by
  induction calls generalizing caches with
  | nil => exact iff_of_true rfl trivial
  | cons call calls ih =>
      have hpayload := hpayloads call List.mem_cons_self
      rw [serveAll, List.map_cons, List.cons.injEq, h.serve_iff hsize hinj hpayload,
        ih (h.serve hpayload) fun later hlater => hpayloads later (List.mem_cons_of_mem _ hlater)]
      rfl

/-- The caches are unnoticed in exactly the runs in which no call brings a new envelope for a cached
payload. -/
theorem decodeCaches_unnoticed_iff (hsize : SizeIsBound compression) (calls : List DecodeCall)
    (hcollision : Set.InjOn compression.blake3
      {payload | ∃ call ∈ calls, call.payload reviewCodec reconstructionCodec = payload}) :
    serveAll compression reviewCodec reconstructionCodec {} calls =
        calls.map (serveFresh compression reviewCodec reconstructionCodec) ↔
      NoNewEnvelopes compression reviewCodec reconstructionCodec {} calls :=
  serveAll_eq_iff hsize hcollision
    ⟨sound_none, sound_none, fun _ hentry => absurd hentry (Option.not_mem_none _),
      fun _ hentry => absurd hentry (Option.not_mem_none _)⟩
    fun call hcall => ⟨call, hcall, rfl⟩

end Runs

/-! ## A tampered envelope -/

/-- Stored payloads, with digests filled up by zeros. -/
def plainCompression : Compression where
  blake3 payload := (payload ++ List.replicate 32 0).take 32
  decompress payload _ := .ok payload

/-- A review base without rows. -/
def emptyReviewBase : ReviewBase Unit where
  protocolVersion := reviewBaseProtocol
  inputKey := "blake3:00"
  rows := []
  matcherSearchSuffixDigests := none
  queryCheckpoints := [("mark_app_policy_matches", ⟨"", "", "", "", "", "", "", "", "sha256:00"⟩)]
  zeroDurationCleanup := none
  zeroDurationCleanupInputKey := none

/-- Every payload is the review base without rows, and every key is zero. -/
def emptyReviewCodec : ReviewCodec Unit where
  fromBytes _ := .ok emptyReviewBase
  hexDecode _ := .ok (List.replicate 32 0)
  lineageDigest _ := ""

/-- No reconstruction base is opened. -/
def noReconstructionCodec : ReconstructionCodec Unit Unit where
  fromBytes _ := .error "unused"
  hexDecode _ := .error "unused"
  protocolVersion _ := ""
  restoreReconstructionBase _ := .error "unused"
  validateMinimumDurationExcludedLineage _ := .ok ()
  validateZeroDurationCleanupLineage _ := .ok ()
  validateReconstructionBaseZeroDurationCleanup _ := .ok ()
  validateReconstructionBaseFoundationalSemantics _ := .ok ()
  inputKey _ := ""

/-- The envelope of an empty payload, with the given bytes for its input key. -/
def reviewBytes (keyByte : UInt8) : List UInt8 :=
  utf8 "CHRRB021" ++ List.replicate 4 0 ++ List.replicate 32 0 ++ List.replicate 32 keyByte ++
    List.replicate 32 0

theorem sizeIsBound_plainCompression : SizeIsBound plainCompression :=
  fun _ _ _ _ _ h h' => Except.ok.inj (h.symm.trans h')

theorem payload_reviewBytes (keyByte : UInt8) :
    (reviewFormat emptyReviewCodec).payload (reviewBytes keyByte) = [] :=
  List.drop_of_length_le (by simp [reviewBytes, BaseFormat.headerBytes, reviewFormat])

theorem injOn_reviewBytes {calls : List DecodeCall}
    (h : ∀ call ∈ calls, ∃ keyByte, call = .review (reviewBytes keyByte)) :
    Set.InjOn plainCompression.blake3
      {payload | ∃ call ∈ calls, call.payload emptyReviewCodec noReconstructionCodec = payload} := by
  have hempty : ∀ call ∈ calls, call.payload emptyReviewCodec noReconstructionCodec = [] := by
    intro call hcall
    obtain ⟨keyByte, rfl⟩ := h call hcall
    exact payload_reviewBytes keyByte
  rintro first ⟨call, hcall, rfl⟩ second ⟨call', hcall', rfl⟩ -
  rw [hempty call hcall, hempty call' hcall']

/-- After the genuine bytes the cache also accepts them with another input key in the header, which
the decoder alone rejects. -/
theorem tampered_envelope_accepted :
    SizeIsBound plainCompression ∧
    Set.InjOn plainCompression.blake3
      {payload | ∃ call ∈ [DecodeCall.review (reviewBytes 0), .review (reviewBytes 1)],
        call.payload emptyReviewCodec noReconstructionCodec = payload} ∧
    serveAll plainCompression emptyReviewCodec noReconstructionCodec {}
        [.review (reviewBytes 0), .review (reviewBytes 1)] ≠
      [DecodeCall.review (reviewBytes 0), .review (reviewBytes 1)].map
        (serveFresh plainCompression emptyReviewCodec noReconstructionCodec) := by
  refine ⟨sizeIsBound_plainCompression, injOn_reviewBytes (by simp), fun h => ?_⟩
  have haccepted := congrArg (List.map Except.isOk) h
  revert haccepted
  decide +kernel

/-- The genuine bytes twice. -/
theorem decodeCaches_unnoticed_iff_twice :
    serveAll plainCompression emptyReviewCodec noReconstructionCodec {}
        [.review (reviewBytes 0), .review (reviewBytes 0)] =
      [DecodeCall.review (reviewBytes 0), .review (reviewBytes 0)].map
        (serveFresh plainCompression emptyReviewCodec noReconstructionCodec) ↔
    NoNewEnvelopes plainCompression emptyReviewCodec noReconstructionCodec {}
      [.review (reviewBytes 0), .review (reviewBytes 0)] :=
  decodeCaches_unnoticed_iff sizeIsBound_plainCompression _ (injOn_reviewBytes (by simp))

end Chronicle.Persistence
