import Chronicle.Library.TextRows
import Chronicle.Screens.SchoedelEpisodes

/-!
# What the ids of intervals and episodes commit to

The bytes that are hashed are texts in a row, and the texts determine every field: the lists of
source rows end where a text is no number.
-/

namespace Chronicle.Screens

open Chronicle.Library.Bytes Chronicle.Library.PrefixCodes Chronicle.Library.TextRows
open Chronicle.Library.StableSort

/-! ## Canonical ids -/

theorem Strategy.canonicalId_inj {a b : Strategy} (h : a.canonicalId = b.canonicalId) : a = b := by
  cases a <;> cases b <;> first | rfl | exact absurd h (by decide)

theorem ScreenIntervalKind.canonicalId_inj {a b : ScreenIntervalKind}
    (h : a.canonicalId = b.canonicalId) : a = b := by
  cases a <;> cases b <;> first | rfl | exact absurd h (by decide)

theorem ScreenIntervalCloseReason.canonicalId_inj {a b : ScreenIntervalCloseReason}
    (h : a.canonicalId = b.canonicalId) : a = b := by
  cases a <;> cases b <;> first | rfl | exact absurd h (by decide)

theorem SchoedelCompletion.canonicalId_inj {a b : SchoedelCompletion}
    (h : a.canonicalId = b.canonicalId) : a = b := by
  cases a <;> cases b <;> first | rfl | exact absurd h (by decide)

theorem ScreenIntervalCloseReason.no_digit (reason : ScreenIntervalCloseReason) :
    beginsWithDigit reason.canonicalId = false := by
  cases reason <;> decide

theorem SchoedelCompletion.no_digit (completion : SchoedelCompletion) :
    beginsWithDigit completion.canonicalId = false := by
  cases completion <;> decide

/-! ## Parts of a row -/

/-- An optional number, blank when it is absent. -/
def optionalNat (n : Option Nat) : String := (n.map toString).getD ""

/-- An optional time, blank when it is absent. -/
def optionalInt (n : Option Int) : String := (n.map toString).getD ""

/-- A flag. -/
def flag (value : Bool) : String := if value then "1" else "0"

theorem optionalNat_inj {a b : Option Nat} (h : optionalNat a = optionalNat b) : a = b :=
  optional_inj (fun _ _ => toString_nat_inj) toString_nat_ne_empty h

theorem optionalInt_inj {a b : Option Int} (h : optionalInt a = optionalInt b) : a = b :=
  optional_inj (fun _ _ => toString_int_inj) toString_int_ne_empty h

theorem flag_inj {a b : Bool} (h : flag a = flag b) : a = b := by
  cases a <;> cases b <;> first | rfl | exact absurd h (by decide)

/-- A list of source rows is told from what follows, which is no number. -/
theorem sourceRows_inj {rows rows' : List Nat} {text text' : String} {rest rest' : List String}
    (htext : beginsWithDigit text = false) (htext' : beginsWithDigit text' = false)
    (h : rows.map toString ++ text :: rest = rows'.map toString ++ text' :: rest') :
    rows = rows' ∧ text = text' ∧ rest = rest' := by
  have hnumbers : ∀ rows : List Nat, ∀ t ∈ rows.map toString, beginsWithDigit t = true := by
    intro rows t ht
    obtain ⟨row, _, rfl⟩ := List.mem_map.mp ht
    exact beginsWithDigit_nat row
  obtain ⟨hrows, hrest⟩ := section_inj (hnumbers rows) (hnumbers rows') htext htext' h
  exact ⟨List.map_injective_iff.mpr (fun _ _ => toString_nat_inj) hrows, hrest⟩

theorem flatMap_digestField_toString (rows : List Nat) :
    (rows.flatMap fun row => digestField (toString row)) = rowBytes (rows.map toString) := by
  rw [rowBytes, List.flatMap_map]
  rfl

theorem rowBytes_append (texts texts' : List String) :
    rowBytes (texts ++ texts') = rowBytes texts ++ rowBytes texts' := List.flatMap_append

theorem rowBytes_cons (text : String) (texts : List String) :
    rowBytes (text :: texts) = digestField text ++ rowBytes texts := rfl

theorem rowBytes_nil : rowBytes [] = [] := rfl

/-- A hash without collisions determines the texts that were hashed. -/
theorem sha256Wire_rowBytes_inj {sha256 : List UInt8 → List UInt8}
    (hsha : Function.Injective sha256) {texts texts' : List String} (h : Fits texts)
    (h' : Fits texts')
    (heq : sha256Wire sha256 (rowBytes texts) = sha256Wire sha256 (rowBytes texts')) :
    texts = texts' := by
  exact rowBytes_inj h h' (hsha (hexEncode_inj (append_text_inj heq)))

/-! ## Intervals -/

/-- The texts that the id of an interval is the hash of. -/
def ScreenIntervalEvidence.identityFields (interval : ScreenIntervalEvidence) : List String :=
  [b05FoundationalSemanticsProtocolVersion, interval.participantId,
    interval.strategyId.canonicalId, interval.kind.canonicalId, toString interval.startNs,
    toString interval.startBoundarySourceRow, optionalInt interval.stopNs,
    optionalNat interval.stopBoundarySourceRow] ++
    (interval.startSourceRows.map toString ++ "|" :: (interval.stopSourceRows.map toString ++
      [interval.closeReason.canonicalId, "0", flag interval.rightCensored]))

/-- The texts that the digest of a list of intervals reads of one interval. -/
def ScreenIntervalEvidence.fields (interval : ScreenIntervalEvidence) : List String :=
  [interval.screenIntervalId, interval.participantId, interval.strategyId.canonicalId,
    interval.kind.canonicalId, toString interval.startNs, optionalInt interval.stopNs,
    toString interval.startBoundarySourceRow, optionalNat interval.stopBoundarySourceRow] ++
    (interval.startSourceRows.map toString ++ "|" :: (interval.stopSourceRows.map toString ++
      [interval.closeReason.canonicalId, flag interval.leftCensored, flag interval.rightCensored]))

theorem material_eq_rowBytes (interval : ScreenIntervalEvidence) :
    interval.material = rowBytes interval.fields := by
  simp only [ScreenIntervalEvidence.material, ScreenIntervalEvidence.fields,
    flatMap_digestField_toString, rowBytes_append, rowBytes_cons, rowBytes_nil, List.append_assoc,
    List.cons_append, List.nil_append, List.append_nil, optionalInt, optionalNat, flag]

/-- Both lists of source rows and what follows them. -/
theorem bothSourceRows_inj {starts starts' stops stops' : List Nat}
    {reason reason' : ScreenIntervalCloseReason} {rest rest' : List String}
    (h : starts.map toString ++ "|" :: (stops.map toString ++ reason.canonicalId :: rest) =
      starts'.map toString ++ "|" :: (stops'.map toString ++ reason'.canonicalId :: rest')) :
    starts = starts' ∧ stops = stops' ∧ reason = reason' ∧ rest = rest' := by
  obtain ⟨hstarts, _, h⟩ := sourceRows_inj (by decide) (by decide) h
  obtain ⟨hstops, hreason, hrest⟩ := sourceRows_inj reason.no_digit reason'.no_digit h
  exact ⟨hstarts, hstops, ScreenIntervalCloseReason.canonicalId_inj hreason, hrest⟩

/-- The texts of an interval determine it, whatever follows them. -/
theorem delimits_intervalFields :
    Delimits (fun _ => True) ScreenIntervalEvidence.fields := by
  intro a _ b _ s t h
  simp only [ScreenIntervalEvidence.fields, List.cons_append, List.nil_append, List.append_assoc,
    List.cons.injEq] at h
  obtain ⟨hid, hparticipant, hstrategy, hkind, hstartNs, hstopNs, hstartRow, hstopRow, h⟩ := h
  obtain ⟨hstarts, hstops, hreason, h⟩ := bothSourceRows_inj h
  simp only [List.cons.injEq] at h
  obtain ⟨hleft, hright, hrest⟩ := h
  refine ⟨?_, hrest⟩
  cases a
  cases b
  simp only [ScreenIntervalEvidence.mk.injEq]
  exact ⟨hid, hparticipant, Strategy.canonicalId_inj hstrategy,
    ScreenIntervalKind.canonicalId_inj hkind, toString_int_inj hstartNs, optionalInt_inj hstopNs,
    toString_nat_inj hstartRow, optionalNat_inj hstopRow, hstarts, hstops, hreason, flag_inj hleft,
    flag_inj hright⟩

/-- The interval was built by `make_screen_interval_from_parts`, and its texts fit. -/
structure BuiltInterval (sha256 : List UInt8 → List UInt8) (interval : ScreenIntervalEvidence) :
    Prop where
  built : ∃ participantId strategyId kind startNs stopNs startRow stopRow startRows stopRows reason,
    interval = makeScreenIntervalFromParts sha256 participantId strategyId kind startNs stopNs
      startRow stopRow startRows stopRows reason
  identityFits : Fits interval.identityFields
  fits : Fits interval.fields

section Intervals

variable {sha256 : List UInt8 → List UInt8} {interval other : ScreenIntervalEvidence}

/-- The id of an interval that was built is that of its texts, and it is not censored on the
left. -/
theorem makeScreenIntervalFromParts_spec
    (hbuilt : ∃ participantId strategyId kind startNs stopNs startRow stopRow startRows stopRows
      reason, interval = makeScreenIntervalFromParts sha256 participantId strategyId kind startNs
        stopNs startRow stopRow startRows stopRows reason) :
    interval.screenIntervalId = "urn:chronicle:screen-interval:" ++
        sha256Wire sha256 (rowBytes interval.identityFields) ∧
      interval.leftCensored = false := by
  obtain ⟨participantId, strategyId, kind, startNs, stopNs, startRow, stopRow, startRows, stopRows,
    reason, rfl⟩ := hbuilt
  refine ⟨?_, rfl⟩
  unfold makeScreenIntervalFromParts ScreenIntervalEvidence.identityFields
  dsimp only
  simp only [flatMap_digestField_toString, rowBytes_append, rowBytes_cons, rowBytes_nil,
    List.append_assoc, List.cons_append, List.nil_append, List.append_nil, optionalInt, optionalNat,
    flag]

/-- Intervals that were built have one id only when they are equal. -/
theorem BuiltInterval.id_inj (hsha : Function.Injective sha256) (h : BuiltInterval sha256 interval)
    (hother : BuiltInterval sha256 other)
    (hid : interval.screenIntervalId = other.screenIntervalId) : interval = other := by
  obtain ⟨hwire, hleft⟩ := makeScreenIntervalFromParts_spec h.built
  obtain ⟨hwire', hleft'⟩ := makeScreenIntervalFromParts_spec hother.built
  rw [hwire, hwire'] at hid
  have hfields := sha256Wire_rowBytes_inj hsha h.identityFits hother.identityFits
    (append_text_inj hid)
  simp only [ScreenIntervalEvidence.identityFields, List.cons_append, List.nil_append,
    List.cons.injEq] at hfields
  obtain ⟨_, hparticipant, hstrategy, hkind, hstartNs, hstartRow, hstopNs, hstopRow, hfields⟩ :=
    hfields
  obtain ⟨hstarts, hstops, hreason, hflags⟩ := bothSourceRows_inj hfields
  simp only [List.cons.injEq] at hflags
  cases interval
  cases other
  simp only [ScreenIntervalEvidence.mk.injEq]
  exact ⟨hwire.trans (hid.trans hwire'.symm), hparticipant, Strategy.canonicalId_inj hstrategy,
    ScreenIntervalKind.canonicalId_inj hkind, toString_int_inj hstartNs, optionalInt_inj hstopNs,
    toString_nat_inj hstartRow, optionalNat_inj hstopRow, hstarts, hstops, hreason,
    hleft.trans hleft'.symm, flag_inj hflags.2.1⟩

/-- Lists of intervals have one digest only when they are equal. -/
theorem screenIntervalDigest_inj (hsha : Function.Injective sha256)
    {intervals others : List ScreenIntervalEvidence}
    (h : ∀ interval ∈ intervals, Fits interval.fields)
    (hothers : ∀ interval ∈ others, Fits interval.fields)
    (hdigest : screenIntervalDigest sha256 intervals = screenIntervalDigest sha256 others) :
    intervals = others := by
  have hmaterial : ∀ intervals : List ScreenIntervalEvidence,
      intervals.flatMap (·.material) = rowBytes (intervals.flatMap (·.fields)) := by
    intro intervals
    rw [rowBytes, List.flatMap_assoc]
    exact List.flatMap_congr fun interval _ => material_eq_rowBytes interval
  have hfits : ∀ {intervals : List ScreenIntervalEvidence},
      (∀ interval ∈ intervals, Fits interval.fields) → Fits (intervals.flatMap (·.fields)) := by
    intro intervals h text htext
    obtain ⟨interval, hinterval, htext⟩ := List.mem_flatMap.mp htext
    exact h interval hinterval text htext
  rw [screenIntervalDigest, screenIntervalDigest, hmaterial, hmaterial] at hdigest
  have hfields := sha256Wire_rowBytes_inj hsha (hfits h) (hfits hothers) hdigest
  -- an interval has texts at all, so no two lists differ by empty ones
  refine delimits_intervalFields.flatMap_inj ?_ (fun _ _ => trivial) (fun _ _ => trivial) hfields
  intro interval _ hnil
  exact List.cons_ne_nil _ _ hnil

end Intervals

/-! ## Episodes -/

/-- The texts that the id of an episode is the hash of. -/
def SchoedelEpisodeEvidence.fields (episode : SchoedelEpisodeEvidence) : List String :=
  [b05FoundationalSemanticsProtocolVersion, schoedelProseStrategyId, episode.screenIntervalId,
    episode.packageName, toString episode.startSourceRow, optionalNat episode.stopSourceRow,
    toString episode.startNs, optionalInt episode.stopNs, optionalInt episode.rawDurationNs] ++
    (episode.sourceRows.map toString ++
      [episode.completion.canonicalId, flag episode.boundedHeadlineCandidate])

theorem episodeMaterial_eq_rowBytes (episode : SchoedelEpisodeEvidence) :
    episode.material = rowBytes episode.fields := by
  simp only [SchoedelEpisodeEvidence.material, SchoedelEpisodeEvidence.fields,
    flatMap_digestField_toString, rowBytes_append, rowBytes_cons, rowBytes_nil, List.append_assoc,
    List.cons_append, List.nil_append, List.append_nil, optionalInt, optionalNat, flag]

section Episodes

variable {sha256 : List UInt8 → List UInt8} {episode other : SchoedelEpisodeEvidence}

/-- The episode was completed in an interval of the list. -/
structure EpisodeOver (sha256 : List UInt8 → List UInt8) (intervals : List ScreenIntervalEvidence)
    (episode : SchoedelEpisodeEvidence) : Prop where
  interval : ∃ interval ∈ intervals, episode.participantId = interval.participantId ∧
    episode.screenIntervalId = interval.screenIntervalId ∧
    episode.b05StrategyId = interval.strategyId
  id : episode.episodeId = schoedelEpisodeId sha256 episode

/-- Episodes over one list of intervals have one id only when they are equal. -/
theorem EpisodeOver.id_inj (hsha : Function.Injective sha256)
    {intervals : List ScreenIntervalEvidence}
    (hintervals : ∀ interval ∈ intervals, BuiltInterval sha256 interval)
    (h : EpisodeOver sha256 intervals episode) (hother : EpisodeOver sha256 intervals other)
    (hfits : Fits episode.fields) (hfits' : Fits other.fields)
    (hid : episode.episodeId = other.episodeId) : episode = other := by
  have hwire : schoedelEpisodeId sha256 episode = schoedelEpisodeId sha256 other :=
    h.id.symm.trans (hid.trans hother.id)
  have hmaterial : sha256Wire sha256 episode.material = sha256Wire sha256 other.material :=
    append_text_inj hwire
  rw [episodeMaterial_eq_rowBytes, episodeMaterial_eq_rowBytes] at hmaterial
  have hfields := sha256Wire_rowBytes_inj hsha hfits hfits' hmaterial
  simp only [SchoedelEpisodeEvidence.fields, List.cons_append, List.nil_append,
    List.cons.injEq] at hfields
  obtain ⟨_, _, hinterval, hpackage, hstartRow, hstopRow, hstartNs, hstopNs, hduration, hfields⟩ :=
    hfields
  obtain ⟨hrows, hcompletion, hflags⟩ :=
    sourceRows_inj episode.completion.no_digit other.completion.no_digit hfields
  obtain ⟨first, hfirst, hparticipant, hfirstId, hstrategy⟩ := h.interval
  obtain ⟨second, hsecond, hparticipant', hsecondId, hstrategy'⟩ := hother.interval
  -- the id of the interval stands for its participant and its strategy
  have hsame : first = second := (hintervals first hfirst).id_inj hsha (hintervals second hsecond)
    (hfirstId.symm.trans (hinterval.trans hsecondId))
  subst hsame
  simp only [List.cons.injEq] at hflags
  cases episode
  cases other
  simp only [SchoedelEpisodeEvidence.mk.injEq]
  exact ⟨hid, hparticipant.trans hparticipant'.symm, hpackage, hinterval,
    hstrategy.trans hstrategy'.symm, toString_int_inj hstartNs, optionalInt_inj hstopNs,
    optionalInt_inj hduration, toString_nat_inj hstartRow, optionalNat_inj hstopRow, hrows,
    SchoedelCompletion.canonicalId_inj hcompletion, flag_inj hflags.1⟩

/-- Every completed episode carries its own id. -/
theorem episodeOver_complete {intervals : List ScreenIntervalEvidence}
    {interval : ScreenIntervalEvidence} (h : interval ∈ intervals) (open_ : OpenSchoedelEpisode)
    (boundary : SchoedelBoundary) :
    EpisodeOver sha256 intervals (completeSchoedelEpisode sha256 interval open_ boundary) :=
  ⟨⟨interval, h, rfl, rfl, rfl⟩, rfl⟩

theorem episodeOver_of_mem_blockEpisodes {intervals : List ScreenIntervalEvidence}
    {interval : ScreenIntervalEvidence} (h : interval ∈ intervals) (l : List LaunchBlock)
    (hepisode : episode ∈ blockEpisodes sha256 interval l) :
    EpisodeOver sha256 intervals episode := by
  induction l with
  | nil => exact absurd hepisode List.not_mem_nil
  | cons block l ih =>
      cases l with
      | nil =>
          rw [List.mem_singleton.mp hepisode]
          exact episodeOver_complete h _ _
      | cons next rest =>
          rcases List.mem_cons.mp hepisode with rfl | hepisode
          · exact episodeOver_complete h _ _
          · exact ih hepisode

/-- Every returned episode lies over the list of intervals. -/
theorem episodeOver_of_mem {input : BoundSchoedelProseInput}
    (h : episode ∈ (reconstructBoundSchoedelProse sha256 input).episodes) :
    EpisodeOver sha256 input.screenIntervals episode := by
  rcases executed_or_refused sha256 input with ⟨_, heq⟩ | ⟨_, _, _, _, heq⟩
  · rw [heq] at h
    obtain ⟨found, hfound, hepisode⟩ := List.mem_flatMap.mp (mem_sortByKey.mp h)
    obtain ⟨interval, hinterval, rfl⟩ := List.mem_map.mp hfound
    rw [ofInterval_episodes] at hepisode
    exact episodeOver_of_mem_blockEpisodes (mem_sortByKey.mp hinterval) _ hepisode
  · rw [heq] at h
    exact absurd h List.not_mem_nil

end Episodes

end Chronicle.Screens
