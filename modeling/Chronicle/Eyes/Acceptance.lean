import Chronicle.Library.Stages
import Chronicle.Eyes.Episodes

/-!
# Acceptance of the evidence

The validator accepts what the segmentation publishes, except for three kinds of input: an app event
of a blank package, whose episode it refuses; a negative proximity interval; and a pickup export
whose row count does not fit the receipt.
-/

namespace Chronicle.Eyes

open Chronicle.Library Chronicle.Library.Machine Chronicle.Library.Stages
open Chronicle.Library.StableSort

/-! ## The validator as a conjunction -/

theorem rejectIf_eq_ok {failed : Bool} {check : String} :
    rejectIf failed check = .ok () ↔ failed = false := by
  cases failed <;> simp [rejectIf]

theorem validateEvidence_eq_ok {evidence : EyesTaggedFauEvidence} {options : EyesOptions} :
    validateEvidence evidence options = .ok () ↔
      (sortByKey EyesBlock.key evidence.deviceStateBlocks = evidence.deviceStateBlocks ∧
        ∀ block ∈ evidence.deviceStateBlocks, block.misshapen = false) ∧
      validateBlockGaps evidence.deviceStateBlocks none = .ok () ∧
      validateTaggedFauReceipt evidence options = .ok () ∧
      (∀ episode ∈ evidence.episodes, validateEpisode options.durationMode episode = .ok ()) ∧
      (evidence.appUsageChunks = mergeAppChunks evidence.episodes ∧
        ∀ chunk ∈ mergeAppChunks evidence.episodes, chunk.impossible = false) ∧
      evidence.fragments = splitAndTagAppUsage (mergeAppChunks evidence.episodes)
        evidence.deviceStateBlocks options ∧
      evidence.chunkEndpoints = EyesSegmentation.chunkEndpoints
        ⟨evidence.deviceStateBlocks, buildPickupExport evidence.deviceStateBlocks options,
          evidence.episodes, mergeAppChunks evidence.episodes,
          splitAndTagAppUsage (mergeAppChunks evidence.episodes) evidence.deviceStateBlocks options,
          0, 0⟩ := by
  unfold validateEvidence
  simp only [check_and, forM_eq_ok, rejectIf_eq_ok, decide_eq_false_iff_not, not_or, not_not,
    ne_eq, Bool.not_eq_true, List.any_eq_false]

/-! ## The parts of the evidence -/

variable {instants : Set Int}

theorem SetBlock.misshapen_eq_false {block : EyesBlock} (h : SetBlock instants block)
    (hcomparable : Comparable instants) : block.misshapen = false := by
  have hkind : block.kind ≠ .empty := by
    unfold EyesBlock.kind
    rcases h.bounded with hstart | hstop
    · cases hstart' : block.startNs with
      | none => exact absurd hstart' hstart
      | some start => cases block.endNs <;> simp
    · cases hstop' : block.endNs with
      | none => exact absurd hstop' hstop
      | some stop => cases block.startNs <;> simp
  have hshutdown : block.kind ≠ .paired → block.blockType = .shutdown := by
    intro hunpaired
    refine h.partials ?_
    unfold EyesBlock.kind at hunpaired
    cases hstart : block.startNs with
    | none => exact Or.inl rfl
    | some start =>
        cases hstop : block.endNs with
        | none => exact Or.inr rfl
        | some stop => simp [hstart, hstop] at hunpaired
  have hlength : block.misshapenLength = false := by
    unfold EyesBlock.misshapenLength
    split
    · rename_i start stop hstart hstop
      have hfits := hcomparable stop (h.stops stop hstop) start (h.starts start hstart)
      have hmax := hfits.2
      simp only [decide_eq_false_iff_not, not_or]
      rcases h.forward start hstart stop hstop with hlt | ⟨htype, rfl⟩
      · exact ⟨by omega, fun ⟨hzero, _⟩ => by omega, by omega⟩
      · exact ⟨by omega, fun ⟨_, hother⟩ => hother htype, by omega⟩
    · rfl
  unfold EyesBlock.misshapen
  simp only [decide_eq_false_iff_not, not_or, hlength]
  exact ⟨h.inactive, hkind, fun ⟨hunpaired, hother⟩ => hother (hshutdown hunpaired), by decide⟩

theorem validateBlockGaps_ok (hcomparable : Comparable instants) {blocks : List EyesBlock}
    {runningEnd : Option Int} (hrunning : ∀ t ∈ runningEnd, t ∈ instants)
    (hblocks : ∀ block ∈ blocks, SetBlock instants block) :
    validateBlockGaps blocks runningEnd = .ok () := by
  induction blocks generalizing runningEnd with
  | nil => rfl
  | cons block rest ih =>
      obtain ⟨hblock, hrest⟩ := List.forall_mem_cons.mp hblocks
      unfold validateBlockGaps
      split
      · rename_i start stop hstart hstop
        have hstart := hblock.starts start hstart
        have hstop := hblock.stops stop hstop
        rw [if_neg, ih _ hrest]
        · intro t ht
          cases runningEnd with
          | none => exact Option.some.inj ht ▸ hstop
          | some previousEnd =>
              obtain rfl := Option.some.inj ht
              rcases max_choice previousEnd stop with hmax | hmax <;> simp only [Option.elim_some, hmax]
              · exact hrunning previousEnd rfl
              · exact hstop
        · intro hoverflow
          cases runningEnd with
          | none => exact absurd hoverflow (by simp)
          | some previousEnd =>
              have hfits := hcomparable start hstart previousEnd (hrunning previousEnd rfl)
              have hlower := hfits.1
              have hupper := hfits.2
              simp only [Option.any_some, decide_eq_true_eq] at hoverflow
              omega
      · exact ih hrunning hrest

/-- A proper episode passes unless its package is blank. -/
theorem ProperEpisode.validate_eq_ok {episode : EyesAppEpisode}
    (h : ProperEpisode instants episode) :
    validateEpisode .tripletStructured episode = .ok () ↔
      isBlank episode.appPackageName = false := by
  unfold validateEpisode
  have hequal := Binary64.eqIeee_self h.proper.1
  simp only [check_and, rejectIf_eq_ok, h.expected, h.proper.1, h.proper.2, Bool.not_true,
    Bool.or_false]
  refine ⟨fun h => h.1, fun hblank => ⟨hblank, ?_⟩⟩
  exact rejectIf_eq_ok.mpr (by rw [hequal]; rfl)

theorem ChunkSpan.impossible_eq_false {chunk : EyesAppUsageChunk} (h : ChunkSpan instants chunk)
    (hcomparable : Comparable instants) : chunk.impossible = false := by
  have hfits := (hcomparable chunk.endNs h.stop chunk.startNs h.start).2
  have hforward := h.forward
  unfold EyesAppUsageChunk.impossible
  rw [decide_eq_false_iff_not, not_or]
  exact ⟨by omega, by omega⟩

/-! ## The options -/

/-- The production options are valid when the proximity interval is not negative. -/
theorem productionOptions_numeric {proximityIntervalNs : Int} (hfits : Fits64 proximityIntervalNs) :
    ((productionOptions proximityIntervalNs).numeric.any
        fun value => !value.isFinite || value.isNegative) = false ↔ 0 ≤ proximityIntervalNs := by
  have hseconds := Binary64.ofInt_divConst hfits (show (1 : ℚ) ≤ 1000000000 by norm_num)
  have hnegative : Binary64.nearest (Binary64.nearest proximityIntervalNs / 1000000000) < 0 ↔
      proximityIntervalNs < 0 := by
    constructor
    · intro hneg
      by_contra hnonneg
      have hcast : (0 : ℚ) ≤ proximityIntervalNs := by exact_mod_cast not_lt.mp hnonneg
      exact absurd hneg (not_lt.mpr (Binary64.nearest_nonneg
        (div_nonneg (Binary64.nearest_nonneg hcast) (by norm_num))))
    · exact fun hneg => Binary64.nearest_div_neg hneg (by norm_num) (by norm_num)
  simp [EyesOptions.numeric, productionOptions, EyesOptions.default, hseconds, Binary64.isFinite,
    Binary64.isNegative]
  simpa using hnegative.not

theorem productionOptions_eqIeee {proximityIntervalNs : Int} (hfits : Fits64 proximityIntervalNs) :
    (productionOptions proximityIntervalNs).eqIeee (productionOptions proximityIntervalNs) =
      true := by
  have hseconds := Binary64.ofInt_divConst hfits (show (1 : ℚ) ≤ 1000000000 by norm_num)
  simp [EyesOptions.eqIeee, EyesOptions.numeric, productionOptions, EyesOptions.default, hseconds,
    Binary64.eqIeee]

/-! ## Acceptance -/

theorem validateTaggedFauReceipt_eq_ok {segmentation : EyesSegmentation} {proximityIntervalNs : Int}
    (hfits : Fits64 proximityIntervalNs)
    (hpickups : segmentation.pickupExport =
      buildPickupExport segmentation.blocks (productionOptions proximityIntervalNs)) :
    validateTaggedFauReceipt
        (segmentation.taggedFauEvidence (productionOptions proximityIntervalNs))
        (productionOptions proximityIntervalNs) = .ok () ↔
      segmentation.pickupExport.length < 2 ^ 32 := by
  have hreceipt : (segmentation.taggedFauEvidence
      (productionOptions proximityIntervalNs)).foreignReceipt
        (productionOptions proximityIntervalNs) = false := by
    simp [EyesTaggedFauEvidence.foreignReceipt, EyesSegmentation.taggedFauEvidence,
      productionOptions_eqIeee hfits]
  unfold validateTaggedFauReceipt
  simp only [check_and, rejectIf_eq_ok, hreceipt, true_and, decide_eq_false_iff_not, not_le, ge_iff_le,
    ne_eq, not_not]
  rw [show (segmentation.taggedFauEvidence
    (productionOptions proximityIntervalNs)).deviceStateBlocks = segmentation.blocks from rfl,
    ← hpickups]
  exact ⟨fun h => h.1, fun h => ⟨h, Nat.mod_eq_of_lt h⟩⟩

/-- The parts of a segmentation are those of its ordered events, if there are any events or none. -/
theorem segmentEyesComplement_parts (events : List EyesEvent) (options : EyesOptions) :
    let segmentation := segmentEyesComplement events options
    segmentation.blocks = buildBlockSet (orderedSignals events) options ∧
      segmentation.pickupExport = buildPickupExport segmentation.blocks options ∧
      segmentation.episodes = reconstructAppTriplets (orderedSignals events) options ∧
      segmentation.appUsageChunks = mergeAppChunks segmentation.episodes ∧
      segmentation.finalAppUsage =
        splitAndTagAppUsage segmentation.appUsageChunks segmentation.blocks options := by
  intro segmentation
  cases hhead : (orderedSignals events).head? with
  | none =>
      have hdefault : segmentation = .default := by
        simp only [segmentation, segmentEyesComplement, hhead]
      rw [hdefault, List.head?_eq_none_iff.mp hhead]
      exact ⟨rfl, rfl, rfl, rfl, rfl⟩
  | some first =>
      obtain ⟨start, stop, hsome⟩ : ∃ start stop, segmentation =
          ⟨buildBlockSet (orderedSignals events) options,
            buildPickupExport (buildBlockSet (orderedSignals events) options) options,
            reconstructAppTriplets (orderedSignals events) options,
            mergeAppChunks (reconstructAppTriplets (orderedSignals events) options),
            splitAndTagAppUsage
              (mergeAppChunks (reconstructAppTriplets (orderedSignals events) options))
              (buildBlockSet (orderedSignals events) options) options, start, stop⟩ := by
        refine ⟨first.1.timestampNs, ((orderedSignals events).getLast?.map
          fun last => last.1.timestampNs).getD first.1.timestampNs, ?_⟩
        simp only [segmentation, segmentEyesComplement, hhead]
      rw [hsome]
      dsimp only
      exact ⟨rfl, rfl, rfl, rfl, rfl⟩

/-- The instants of a list of events. -/
def eventInstants (events : List EyesEvent) : Set Int :=
  {t | ∃ event ∈ events, event.timestampNs = t}

theorem orderedSignals_sorted (events : List EyesEvent) :
    (orderedSignals events).Pairwise fun a b => a.1.timestampNs ≤ b.1.timestampNs :=
  List.pairwise_map.mpr (pairwise_sortByKey _ _)

theorem mem_orderedSignals {events : List EyesEvent} {entry : EyesEvent × EyesSignal} :
    entry ∈ orderedSignals events ↔ ∃ event ∈ events, (event, event.signal) = entry := by
  simp only [orderedSignals, List.mem_map, mem_sortByKey]

section Segmentation

variable {events : List EyesEvent} {proximityIntervalNs : Int}

/-- The evidence passes every check of its own when no app event has a blank package and the pickup
rows can be counted. -/
theorem validateEvidence_segmentation (hcomparable : Comparable (eventInstants events))
    (hfits : Fits64 proximityIntervalNs) :
    validateEvidence
        ((segmentEyesComplement events (productionOptions proximityIntervalNs)).taggedFauEvidence
          (productionOptions proximityIntervalNs))
        (productionOptions proximityIntervalNs) = .ok () ↔
      (buildPickupExport (buildBlockSet (orderedSignals events)
          (productionOptions proximityIntervalNs))
          (productionOptions proximityIntervalNs)).length < 2 ^ 32 ∧
        ∀ event ∈ events, event.signal.isAppSignal = true →
          isBlank event.appPackageName = false := by
  obtain ⟨hblocks, hpickups, hepisodes, hchunks, hfragments⟩ :=
    segmentEyesComplement_parts events (productionOptions proximityIntervalNs)
  generalize segmentEyesComplement events (productionOptions proximityIntervalNs) = segmentation at *
  have hinstants : ∀ entry ∈ orderedSignals events,
      entry.1.timestampNs ∈ eventInstants events := by
    intro entry hentry
    obtain ⟨event, hevent, rfl⟩ := mem_orderedSignals.mp hentry
    exact ⟨event, hevent, rfl⟩
  have hshape := buildBlockSet_shape hcomparable hinstants proximityIntervalNs
  rw [← hblocks] at hshape
  obtain ⟨hproper, hpackages⟩ := reconstructAppTriplets_spec hcomparable
    (orderedSignals_sorted events) hinstants proximityIntervalNs
  rw [← hepisodes] at hproper hpackages
  have hspans := mergeAppChunks_span fun episode hepisode => (hproper episode hepisode).span
  have hcanonical : sortByKey EyesBlock.key segmentation.blocks = segmentation.blocks := by
    refine sortByKey_eq_self ?_
    rw [hblocks]
    exact pairwise_sortByKey _ _
  -- an episode is refused for its package alone, and its package is that of an app event
  have hnames : (∀ episode ∈ segmentation.episodes,
      validateEpisode .tripletStructured episode = .ok ()) ↔
        ∀ event ∈ events, event.signal.isAppSignal = true →
          isBlank event.appPackageName = false := by
    constructor
    · intro hvalid event hevent happ
      obtain ⟨episode, hepisode, hname⟩ := (hpackages event.appPackageName).mpr
        ⟨_, mem_orderedSignals.mpr ⟨event, hevent, rfl⟩, happ, rfl⟩
      exact hname ▸ (hproper episode hepisode).validate_eq_ok.mp (hvalid episode hepisode)
    · intro hnonblank episode hepisode
      obtain ⟨entry, hentry, happ, hname⟩ :=
        (hpackages episode.appPackageName).mp ⟨episode, hepisode, rfl⟩
      obtain ⟨event, hevent, rfl⟩ := mem_orderedSignals.mp hentry
      exact (hproper episode hepisode).validate_eq_ok.mpr (hname ▸ hnonblank event hevent happ)
  have hendpoints : (segmentation.taggedFauEvidence
      (productionOptions proximityIntervalNs)).chunkEndpoints =
        EyesSegmentation.chunkEndpoints ⟨segmentation.blocks,
          buildPickupExport segmentation.blocks (productionOptions proximityIntervalNs),
          segmentation.episodes, mergeAppChunks segmentation.episodes,
          splitAndTagAppUsage (mergeAppChunks segmentation.episodes) segmentation.blocks
            (productionOptions proximityIntervalNs), 0, 0⟩ := by
    rw [← hchunks]
    rfl
  rw [validateEvidence_eq_ok, validateTaggedFauReceipt_eq_ok hfits hpickups, ← hnames, ← hblocks,
    ← hpickups]
  constructor
  · exact fun h => ⟨h.2.2.1, h.2.2.2.1⟩
  · rintro ⟨hcount, hvalid⟩
    exact ⟨⟨hcanonical, fun block hblock => (hshape block hblock).misshapen_eq_false hcomparable⟩,
      validateBlockGaps_ok hcomparable (fun _ h => absurd h (Option.not_mem_none _)) hshape,
      hcount, hvalid, ⟨hchunks, fun chunk hchunk => (hspans chunk hchunk).impossible_eq_false
        hcomparable⟩, hchunks ▸ hfragments, hendpoints⟩

end Segmentation

/-- The evidence of one participant's events is accepted exactly when no app event has a blank
package, the proximity interval is not negative and the pickup rows can be counted. -/
theorem segmented_evidence_accepted_iff (participantId : String) (events : List EyesEvent)
    (proximityIntervalNs : Int) (hid : isBlank participantId = false)
    (hcomparable : Comparable (eventInstants events)) (hfits : Fits64 proximityIntervalNs) :
    validateEyesTaggedFauEvidence
        [⟨participantId, (segmentEyesComplement events
          (productionOptions proximityIntervalNs)).taggedFauEvidence
            (productionOptions proximityIntervalNs)⟩]
        (productionOptions proximityIntervalNs) = .ok () ↔
      (∀ event ∈ events, event.signal.isAppSignal = true → isBlank event.appPackageName = false) ∧
        0 ≤ proximityIntervalNs ∧
        (buildPickupExport (buildBlockSet (orderedSignals events)
          (productionOptions proximityIntervalNs))
          (productionOptions proximityIntervalNs)).length < 2 ^ 32 := by
  unfold validateEyesTaggedFauEvidence validateParticipants validateParticipants
  simp only [check_and, rejectIf_eq_ok, productionOptions_numeric hfits, hid,
    validateEvidence_segmentation hcomparable hfits, Option.any_none, List.not_mem_nil,
    decide_false, Bool.or_self, true_and, and_true]
  exact ⟨fun ⟨hnonneg, hcount, hnonblank⟩ => ⟨hnonblank, hnonneg, hcount⟩,
    fun ⟨hnonblank, hnonneg, hcount⟩ => ⟨hnonneg, hcount, hnonblank⟩⟩

theorem comparable_singleton (event : EyesEvent) : Comparable (eventInstants [event]) := by
  rintro _ ⟨a, ha, rfl⟩ _ ⟨b, hb, rfl⟩
  rw [List.mem_singleton.mp ha, List.mem_singleton.mp hb, sub_self]
  decide

/-- One resumed app is accepted. -/
theorem resumed_app_accepted :
    validateEyesTaggedFauEvidence
      [⟨"P1", (segmentEyesComplement [⟨0, "Activity Resumed", "com.example"⟩]
        (productionOptions 2000000000)).taggedFauEvidence (productionOptions 2000000000)⟩]
      (productionOptions 2000000000) = .ok () := by
  refine (segmented_evidence_accepted_iff "P1" _ 2000000000 (by decide)
    (comparable_singleton _) (by decide)).mpr ⟨by decide, by decide, ?_⟩
  have hblocks : buildBlockSet (orderedSignals [⟨0, "Activity Resumed", "com.example"⟩])
      (productionOptions 2000000000) = [] := by rfl
  rw [hblocks]
  decide

/-- The episode of one resumed app of a blank package is refused. -/
theorem blank_package_refused :
    isBlank "P1" = false ∧
      Comparable (eventInstants [⟨0, "Activity Resumed", ""⟩]) ∧ Fits64 2000000000 ∧
      validateEyesTaggedFauEvidence
        [⟨"P1", (segmentEyesComplement [⟨0, "Activity Resumed", ""⟩]
          (productionOptions 2000000000)).taggedFauEvidence (productionOptions 2000000000)⟩]
        (productionOptions 2000000000) ≠ .ok () := by
  refine ⟨by decide, comparable_singleton _, by decide, fun haccepted => ?_⟩
  unfold validateEyesTaggedFauEvidence validateParticipants at haccepted
  have hevidence := (check_and.mp (check_and.mp (check_and.mp haccepted).2).2).1
  have hnonblank := ((validateEvidence_segmentation (comparable_singleton _)
    (by decide)).mp hevidence).2 ⟨0, "Activity Resumed", ""⟩ List.mem_cons_self (by decide)
  exact absurd hnonblank (by decide)

end Chronicle.Eyes
