import Chronicle.Library.Groups
import Chronicle.Library.Stages
import Chronicle.Pipeline.OpenerSets

/-!
# Matching participant by participant

The rows of every participant are gathered and matched by themselves, and the answers are put
together under the indices of the whole table, in the order of their start rows. So a participant
gets what its own rows give, and no episode pairs the rows of two participants.
-/

namespace Chronicle.Pipeline

open Chronicle.Library Chronicle.Library.Groups Chronicle.Library.StableSort Chronicle.Matcher

/-! ## Gathering -/

/-- `gather` -/
def gather {α : Type} (values : List α) (indices : List Nat) : MatcherResult (List α) :=
  indices.mapM (elementAt values)

/-- The arrays at the indices. -/
def MatcherInput.gathered (input : MatcherInput) (indices : List Nat) :
    MatcherResult MatcherInput := do
  let appCodes ← gather input.appCodes indices
  let timestamps ← gather input.timestamps indices
  let resumed ← gather input.resumed indices
  let sameStop ← gather input.sameStop indices
  let otherStop ← gather input.otherStop indices
  let stopped ← gather input.stopped indices
  let background ← gather input.background indices
  return { appCodes, timestamps, resumed, sameStop, otherStop, stopped, background }

/-- The participants in the order of their first rows. -/
def participantOrder (rows : List Row) : List String :=
  rows.foldl (fun order row =>
    if row.participantId ∈ order then order else order ++ [row.participantId]) []

/-- The indices of the rows of a participant. -/
def indicesOf (rows : List Row) (participantId : String) : List Nat :=
  positions Row.participantId rows participantId

/-! ## Merging -/

/-- `MergedMatcherOutput` -/
structure MergedMatcherOutput (E : Type) where
  starts : List Nat := []
  closed : List MergedEpisode := []
  missing : List (Nat × EpisodeCloseReason) := []
  eyesTaggedFauEvidence : List E := []
  eyesValidationExpectedParticipantIds : List String := []

/-- The episode under the indices of the whole table. -/
def MergedEpisode.relabelled (indices : List Nat) (episode : MergedEpisode) :
    MatcherResult MergedEpisode := do
  let start ← elementAt indices episode.start
  let stop ← elementAt indices episode.stop
  return { episode with start, stop }

/-- The missing end under the indices of the whole table. -/
def relabelledMissing (indices : List Nat) (entry : Nat × EpisodeCloseReason) :
    MatcherResult (Nat × EpisodeCloseReason) := do
  let start ← elementAt indices entry.1
  return (start, entry.2)

namespace MergedMatcherOutput

variable {E : Type}

/-- `MergedMatcherOutput::absorb` -/
def absorb (merged : MergedMatcherOutput E) (output : EvidencedOutput E) (indices : List Nat) :
    MatcherResult (MergedMatcherOutput E) := do
  let starts ← output.startIndices.mapM (elementAt indices)
  let closes ← output.closes
  let closed ← closes.mapM (MergedEpisode.relabelled indices)
  let missing ← output.missing.mapM (relabelledMissing indices)
  return {
    starts := merged.starts ++ starts
    closed := merged.closed ++ closed
    missing := merged.missing ++ missing
    eyesTaggedFauEvidence := merged.eyesTaggedFauEvidence ++ output.eyesTaggedFauEvidence
    eyesValidationExpectedParticipantIds :=
      merged.eyesValidationExpectedParticipantIds ++ output.eyesValidationExpectedParticipantIds }

/-- `MergedMatcherOutput::into_output` -/
def intoOutput (participantOf : E → String) (merged : MergedMatcherOutput E) : EvidencedOutput E :=
  let closed := sortByKey MergedEpisode.start merged.closed
  let missing := sortByKey Prod.fst merged.missing
  { startIndices := sortByKey id merged.starts
    stopStartIndices := closed.map MergedEpisode.start
    stopEventIndices := closed.map MergedEpisode.stop
    missingIndices := missing.map Prod.fst
    stopReasons := closed.map MergedEpisode.reason
    missingReasons := missing.map Prod.snd
    stopTimestampsNs := closed.map MergedEpisode.stopTimestampNs
    startTimestampsNs := closed.map MergedEpisode.startTimestampNs
    eyesTaggedFauEvidence := sortByKey participantOf merged.eyesTaggedFauEvidence
    eyesValidationExpectedParticipantIds :=
      (sortByKey id merged.eyesValidationExpectedParticipantIds).dedup }

end MergedMatcherOutput

/-! ## The dispatch -/

section Dispatch

variable {E : Type} (given : EpisodeReconstructionStrategy → MatchingRule E)
variable (participantOf : E → String) (strategy : EpisodeReconstructionStrategy)
variable (openerSet : OpenerSet)

/-- The rows have neither an eligible opener nor a pause. -/
def skipped (rows : List Row) (eligible : List Bool) : Bool :=
  !eligible.any id && !rows.any (·.interactionType = activityPaused)

/-- One turn of the loop over the participants. -/
def matchParticipant (input : MatcherInput) (rows : List Row) (merged : MergedMatcherOutput E)
    (participantId : String) : MatcherResult (MergedMatcherOutput E) := do
  let indices := indicesOf rows participantId
  let subInput ← input.gathered indices
  let subRows ← gather rows indices
  let subEligible ← gather (rows.map (eligibleOpener openerSet strategy)) indices
  if skipped subRows subEligible then return merged
  let output ← matchAppEpisodesForOneParticipant given strategy subInput subRows subEligible
  merged.absorb output indices

/-- `finalize_opener_output` -/
def finalizeOpenerOutput (output : EvidencedOutput E) (rows : List Row)
    (evidence : OpenerSetEvidence) : MatcherResult (EvidencedOutput E) := do
  let closed := (sortByKey id output.stopStartIndices).dedup
  let types ← closed.mapM fun index => do
    let row ← elementAt rows index
    return (index, row.interactionType)
  let counted := types.filter fun entry =>
    entry.2 = activityResumed ∨ openerSet ≠ .strategyDefined
  let nonresume := types.filter fun entry =>
    openerSet ≠ .strategyDefined ∧ entry.2 ≠ activityResumed
  return { output with
    selectedNonresumeClosedIndices :=
      (sortByKey id (output.selectedNonresumeClosedIndices ++ nonresume.map Prod.fst)).dedup
    openerSetEvidence :=
      { evidence with materializedOpenerTypeCounts := countsOf (counted.map Prod.snd) } }

/-- The evidence on the choice of openers, before episodes are materialized. -/
def openerEvidence (rows : List Row) : OpenerSetEvidence where
  applicability := openerSet.applicability strategy
  suppressedDeviceOpenerCount :=
    if openerSet = .gesisAppScopedStarts then
      rows.countP (·.interactionType ∈ ["Screen Interactive", "Screen Interactive/Keyguard Shown",
        "Keyguard Hidden", "Device Startup"])
    else 0
  selectedOpenerTypeCounts :=
    countsOf ((rows.filter (eligibleOpener openerSet strategy)).map (·.interactionType))
  materializedOpenerTypeCounts := []

/-- Whether some row can open or pause an episode. -/
def hasValidUsageSignal (input : MatcherInput) (rows : List Row) : Bool :=
  (if openerSet = .strategyDefined then input.resumed.any id
    else rows.any (eligibleOpener openerSet strategy)) ||
    rows.any (·.interactionType = activityPaused)

/-- `match_app_episodes_with_strategy` -/
def matchAppEpisodesWithStrategy (input : MatcherInput) (rows : List Row) :
    MatcherResult (EvidencedOutput E) := do
  let applicability := openerSet.applicability strategy
  Stages.require (input.appCodes.length = rows.length)
    (.error ("matcher: index has " ++ toString input.appCodes.length ++ " events but " ++
      toString rows.length ++
      " rows were supplied; the two views must describe the same events"))
  Stages.require (applicability.isExecutable = true)
    (.error ("opener_set_refused:" ++ openerSet.canonicalId ++ ":" ++ strategy.canonicalId ++
      ":" ++ (applicability.refusalReason.map (·.canonicalId)).getD ""))
  Stages.require (hasValidUsageSignal strategy openerSet input rows = true)
    (.error "No valid app usage data during the study period")
  let evidence := openerEvidence strategy openerSet rows
  if (participantOrder rows).length ≤ 1 then
    let output ← matchAppEpisodesForOneParticipant given strategy input rows
      (rows.map (eligibleOpener openerSet strategy))
    finalizeOpenerOutput openerSet output rows evidence
  else
    let merged ← (participantOrder rows).foldlM
      (matchParticipant given strategy openerSet input rows) {}
    finalizeOpenerOutput openerSet (merged.intoOutput participantOf) rows evidence

end Dispatch

/-! ## Indices of a participant -/

theorem elementAt_eq_ok {α : Type} {values : List α} {index : Nat} {value : α} :
    elementAt values index = .ok value ↔ values[index]? = some value := by
  unfold elementAt
  split
  · next found hfound => simp [hfound]
  · next hnone => simp [hnone]

/-- The row at the index is one of the participant. -/
def belongs (rows : List Row) (participantId : String) (index : Nat) : Bool :=
  rows[index]?.any fun row => row.participantId = participantId

theorem mem_indicesOf {rows : List Row} {participantId : String} {index : Nat} :
    index ∈ indicesOf rows participantId ↔ belongs rows participantId index = true := by
  simp [indicesOf, mem_positions, belongs, Option.any_eq_true]

/-- What is gathered at the indices of a participant is what its rows have. -/
theorem gather_indicesOf {α : Type} (f : Row → α) (rows : List Row) (participantId : String) :
    gather (rows.map f) (indicesOf rows participantId) =
      .ok ((rows.filter fun row => row.participantId = participantId).map f) := by
  rw [← map_positions, gather, List.map_filterMap]
  have hread : ∀ index ∈ indicesOf rows participantId,
      elementAt (rows.map f) index = .ok (f (rowAt rows index)) ∧
        (rows[index]?).map f = some (f (rowAt rows index)) := by
    intro index hindex
    obtain ⟨row, hrow, _⟩ := mem_positions.mp hindex
    have hat : rowAt rows index = row := by
      rw [rowAt, List.getD_eq_getElem?_getD, hrow, Option.getD_some]
    rw [hat, elementAt_eq_ok, List.getElem?_map, hrow]
    exact ⟨rfl, rfl⟩
  have hall : (indicesOf rows participantId).filterMap (fun index => (rows[index]?).map f) =
      (indicesOf rows participantId).map fun index => f (rowAt rows index) := by
    rw [List.filterMap_congr fun index hindex => (hread index hindex).2, List.filterMap_eq_map']
  rw [Stages.mapM_eq_ok_map fun index hindex => (hread index hindex).1, ← hall]
  rfl

theorem mem_participantOrder {rows : List Row} {participantId : String} :
    participantId ∈ participantOrder rows ↔ participantId ∈ rows.map (·.participantId) := by
  have hfold : ∀ order : List String, participantId ∈ rows.foldl (fun order row =>
      if row.participantId ∈ order then order else order ++ [row.participantId]) order ↔
        participantId ∈ order ∨ participantId ∈ rows.map (·.participantId) := by
    induction rows with
    | nil => simp
    | cons row rows ih =>
        intro order
        rw [List.foldl_cons, ih, List.map_cons, List.mem_cons]
        split
        -- a participant that was met before is not listed again
        · next hmem =>
            constructor
            · exact fun h => h.imp_right Or.inr
            · rintro (h | rfl | h)
              · exact .inl h
              · exact .inl hmem
              · exact .inr h
        · rw [List.mem_append, List.mem_singleton, or_assoc]
  rw [participantOrder, hfold []]
  simp

theorem nodup_participantOrder (rows : List Row) : (participantOrder rows).Nodup := by
  have hfold : ∀ order : List String, order.Nodup → (rows.foldl (fun order row =>
      if row.participantId ∈ order then order else order ++ [row.participantId]) order).Nodup := by
    induction rows with
    | nil => exact fun _ h => h
    | cons row rows ih =>
        intro order hnodup
        rw [List.foldl_cons]
        split
        · exact ih order hnodup
        · next hnew =>
            refine ih _ (List.nodup_append.mpr ⟨hnodup, List.nodup_singleton _, ?_⟩)
            intro first hfirst second hsecond heq
            rw [List.mem_singleton.mp hsecond] at heq
            exact hnew (heq ▸ hfirst)
  exact hfold [] List.nodup_nil

/-! ## Merged episodes -/

section Merged

variable {E : Type}

theorem closeAt_record (closed : List MergedEpisode) (output : MatcherOutput)
    (hstarts : output.stopStartIndices = closed.map MergedEpisode.start)
    (hstops : output.stopEventIndices = closed.map MergedEpisode.stop)
    (hreasons : output.stopReasons = closed.map MergedEpisode.reason)
    (hends : output.stopTimestampsNs = closed.map MergedEpisode.stopTimestampNs)
    (hbegins : output.startTimestampsNs = closed.map MergedEpisode.startTimestampNs) :
    output.closes = .ok closed := by
  have hread : ∀ position ∈ List.range closed.length, output.closeAt position =
      .ok (closed.getD position ⟨0, 0, .unobserved, none, none⟩) := by
    intro position hposition
    have hlt := List.mem_range.mp hposition
    have hat : ∀ {α : Type} (f : MergedEpisode → α), elementAt (closed.map f) position =
        .ok (f (closed.getD position ⟨0, 0, .unobserved, none, none⟩)) := by
      intro α f
      rw [elementAt_eq_ok, List.getElem?_map, List.getElem?_eq_getElem hlt,
        List.getD_eq_getElem _ _ hlt]
      rfl
    rw [MatcherOutput.closeAt, hstarts, hstops, hreasons, hends, hbegins, hat, hat, hat, hat, hat]
    rfl
  rw [MatcherOutput.closes, hstarts, List.length_map, Stages.mapM_eq_ok_map hread]
  congr 1
  refine List.ext_getElem (by simp) fun position hposition hlt => ?_
  rw [List.getElem_map, List.getElem_range, List.getD_eq_getElem _ _ hlt]

theorem closes_intoOutput (participantOf : E → String) (merged : MergedMatcherOutput E) :
    (merged.intoOutput participantOf).closes =
      .ok (sortByKey MergedEpisode.start merged.closed) :=
  closeAt_record _ _ rfl rfl rfl rfl rfl

theorem missing_intoOutput (participantOf : E → String) (merged : MergedMatcherOutput E) :
    (merged.intoOutput participantOf).missing = sortByKey Prod.fst merged.missing := by
  show (List.map Prod.fst _).zip (List.map Prod.snd _) = _
  generalize sortByKey Prod.fst merged.missing = l
  induction l with
  | nil => rfl
  | cons entry l ih => rw [List.map_cons, List.map_cons, List.zip_cons_cons, ih]

theorem absorb_eq_ok {merged result : MergedMatcherOutput E} {output : EvidencedOutput E}
    {indices : List Nat} (h : merged.absorb output indices = .ok result) :
    ∃ starts closes closed missing, output.startIndices.mapM (elementAt indices) = .ok starts ∧
      output.closes = .ok closes ∧
      closes.mapM (MergedEpisode.relabelled indices) = .ok closed ∧
      output.missing.mapM (relabelledMissing indices) = .ok missing ∧
      result.starts = merged.starts ++ starts ∧ result.closed = merged.closed ++ closed ∧
      result.missing = merged.missing ++ missing := by
  unfold MergedMatcherOutput.absorb at h
  obtain ⟨starts, hstarts, h⟩ := Stages.bind_eq_ok.mp h
  obtain ⟨closes, hcloses, h⟩ := Stages.bind_eq_ok.mp h
  obtain ⟨closed, hclosed, h⟩ := Stages.bind_eq_ok.mp h
  obtain ⟨missing, hmissing, h⟩ := Stages.bind_eq_ok.mp h
  cases h
  exact ⟨starts, closes, closed, missing, hstarts, hcloses, hclosed, hmissing, rfl, rfl, rfl⟩

theorem mem_of_elementAt {indices : List Nat} {index found : Nat}
    (h : elementAt indices index = .ok found) : found ∈ indices :=
  List.mem_of_getElem? (elementAt_eq_ok.mp h)

theorem relabelled_eq_ok {indices : List Nat} {episode found : MergedEpisode}
    (h : episode.relabelled indices = .ok found) :
    found.start ∈ indices ∧ found.stop ∈ indices := by
  unfold MergedEpisode.relabelled at h
  obtain ⟨start, hstart, h⟩ := Stages.bind_eq_ok.mp h
  obtain ⟨stop, hstop, h⟩ := Stages.bind_eq_ok.mp h
  cases h
  exact ⟨mem_of_elementAt hstart, mem_of_elementAt hstop⟩

theorem relabelledMissing_eq_ok {indices : List Nat} {entry found : Nat × EpisodeCloseReason}
    (h : relabelledMissing indices entry = .ok found) : found.1 ∈ indices := by
  unfold relabelledMissing at h
  obtain ⟨start, hstart, h⟩ := Stages.bind_eq_ok.mp h
  cases h
  exact mem_of_elementAt hstart

end Merged

/-! ## What a participant gets -/

/-- What a participant contributes: starts, episodes and missing ends under the indices of the
whole table. -/
structure Share where
  starts : List Nat := []
  closed : List MergedEpisode := []
  missing : List (Nat × EpisodeCloseReason) := []

/-- The share is what the rule gives for the participant's rows alone, under the indices of the
whole table; it is empty when these rows have neither an eligible opener nor a pause. -/
def AnswersFor {E : Type} (given : EpisodeReconstructionStrategy → MatchingRule E)
    (strategy : EpisodeReconstructionStrategy) (openerSet : OpenerSet) (input : MatcherInput)
    (rows : List Row) (participantId : String) (share : Share) : Prop :=
  let indices := indicesOf rows participantId
  let subRows := rows.filter fun row => row.participantId = participantId
  let subEligible := subRows.map (eligibleOpener openerSet strategy)
  ∃ subInput, input.gathered indices = .ok subInput ∧
    ((skipped subRows subEligible = true ∧ share = {}) ∨
      (skipped subRows subEligible = false ∧ ∃ output closes,
        matchAppEpisodesForOneParticipant given strategy subInput subRows subEligible = .ok output ∧
        output.closes = .ok closes ∧
        output.startIndices.mapM (elementAt indices) = .ok share.starts ∧
        closes.mapM (MergedEpisode.relabelled indices) = .ok share.closed ∧
        output.missing.mapM (relabelledMissing indices) = .ok share.missing))

section Runs

variable {E : Type} {given : EpisodeReconstructionStrategy → MatchingRule E}
variable {strategy : EpisodeReconstructionStrategy} {openerSet : OpenerSet} {input : MatcherInput}
variable {rows : List Row} {participantId : String} {share : Share}
variable {merged result : MergedMatcherOutput E}

/-- A share names rows of its participant only. -/
structure Share.Within (rows : List Row) (participantId : String) (share : Share) : Prop where
  starts : ∀ start ∈ share.starts, belongs rows participantId start = true
  closed : ∀ episode ∈ share.closed, belongs rows participantId episode.start = true ∧
    belongs rows participantId episode.stop = true
  missing : ∀ entry ∈ share.missing, belongs rows participantId entry.1 = true

theorem AnswersFor.within (h : AnswersFor given strategy openerSet input rows participantId share) :
    share.Within rows participantId := by
  obtain ⟨subInput, _, ⟨_, rfl⟩ | ⟨_, output, closes, _, _, hstarts, hclosed, hmissing⟩⟩ := h
  · exact ⟨fun _ h => absurd h List.not_mem_nil, fun _ h => absurd h List.not_mem_nil,
      fun _ h => absurd h List.not_mem_nil⟩
  · refine ⟨fun start hstart => ?_, fun episode hepisode => ?_, fun entry hentry => ?_⟩
    · obtain ⟨index, _, hread⟩ := Stages.mem_of_mapM_ok hstarts hstart
      exact mem_indicesOf.mp (mem_of_elementAt hread)
    · obtain ⟨found, _, hread⟩ := Stages.mem_of_mapM_ok hclosed hepisode
      obtain ⟨hfirst, hlast⟩ := relabelled_eq_ok hread
      exact ⟨mem_indicesOf.mp hfirst, mem_indicesOf.mp hlast⟩
    · obtain ⟨found, _, hread⟩ := Stages.mem_of_mapM_ok hmissing hentry
      exact mem_indicesOf.mp (relabelledMissing_eq_ok hread)

/-- One turn of the loop adds the share of its participant. -/
theorem matchParticipant_eq_ok
    (h : matchParticipant given strategy openerSet input rows merged participantId = .ok result) :
    ∃ share, AnswersFor given strategy openerSet input rows participantId share ∧
      result.starts = merged.starts ++ share.starts ∧
      result.closed = merged.closed ++ share.closed ∧
      result.missing = merged.missing ++ share.missing := by
  have hrows := gather_indicesOf id rows participantId
  rw [List.map_id, List.map_id] at hrows
  unfold matchParticipant at h
  obtain ⟨subInput, hinput, h⟩ := Stages.bind_eq_ok.mp h
  obtain ⟨subRows, hsub, h⟩ := Stages.bind_eq_ok.mp h
  obtain ⟨subEligible, heligible, h⟩ := Stages.bind_eq_ok.mp h
  rw [hrows] at hsub
  rw [gather_indicesOf] at heligible
  cases hsub
  cases heligible
  split at h
  · next hskipped =>
      cases h
      exact ⟨{}, ⟨subInput, hinput, .inl ⟨hskipped, rfl⟩⟩, by simp, by simp, by simp⟩
  · next hskipped =>
      obtain ⟨output, houtput, h⟩ := Stages.bind_eq_ok.mp h
      obtain ⟨starts, closes, closed, missing, hstarts, hcloses, hclosed, hmissing, hresult⟩ :=
        absorb_eq_ok h
      refine ⟨⟨starts, closed, missing⟩, ⟨subInput, hinput, .inr ⟨by simpa using hskipped, output,
        closes, houtput, hcloses, hstarts, hclosed, hmissing⟩⟩, hresult⟩

/-- The loop adds the shares of all participants, one after the other. -/
theorem foldlM_matchParticipant_eq_ok {order : List String} (hnodup : order.Nodup)
    (h : order.foldlM (matchParticipant given strategy openerSet input rows) merged = .ok result) :
    ∃ shares : String → Share,
      (∀ participantId ∈ order,
        AnswersFor given strategy openerSet input rows participantId (shares participantId)) ∧
      result.starts = merged.starts ++ order.flatMap (fun p => (shares p).starts) ∧
      result.closed = merged.closed ++ order.flatMap (fun p => (shares p).closed) ∧
      result.missing = merged.missing ++ order.flatMap (fun p => (shares p).missing) := by
  induction order generalizing merged with
  | nil =>
      cases h
      exact ⟨fun _ => {}, by simp, by simp, by simp, by simp⟩
  | cons first order ih =>
      rw [List.foldlM_cons] at h
      obtain ⟨next, hnext, h⟩ := Stages.bind_eq_ok.mp h
      obtain ⟨hfirst, hnodup⟩ := List.nodup_cons.mp hnodup
      obtain ⟨share, hshare, hstarts, hclosed, hmissing⟩ := matchParticipant_eq_ok hnext
      obtain ⟨shares, hshares, hstarts', hclosed', hmissing'⟩ := ih hnodup h
      -- the first participant is none of the later ones, so its share is added to theirs
      have hlater : ∀ p ∈ order, Function.update shares first share p = shares p := by
        intro p hp
        exact Function.update_of_ne (fun heq : p = first => hfirst (heq ▸ hp)) _ _
      refine ⟨Function.update shares first share, ?_, ?_, ?_, ?_⟩
      · intro p hp
        rcases List.mem_cons.mp hp with rfl | hp
        · rwa [Function.update_self]
        · rw [hlater p hp]
          exact hshares p hp
      · rw [hstarts', hstarts, List.flatMap_cons, Function.update_self, List.append_assoc]
        congr 2
        exact List.flatMap_congr fun p hp => by rw [hlater p hp]
      · rw [hclosed', hclosed, List.flatMap_cons, Function.update_self, List.append_assoc]
        congr 2
        exact List.flatMap_congr fun p hp => by rw [hlater p hp]
      · rw [hmissing', hmissing, List.flatMap_cons, Function.update_self, List.append_assoc]
        congr 2
        exact List.flatMap_congr fun p hp => by rw [hlater p hp]

theorem eq_of_belongs {other : String} {index : Nat} (h : belongs rows participantId index = true)
    (hother : belongs rows other index = true) : participantId = other := by
  rw [belongs] at h hother
  cases hrow : rows[index]? with
  | none =>
      rw [hrow] at h
      exact nomatch h
  | some row =>
      rw [hrow, Option.any_some, decide_eq_true_eq] at h hother
      exact h.symm.trans hother

/-- The part of one participant among the shares of all. -/
theorem filter_shares {α : Type} {start : α → Nat} {parts : String → List α} {order : List String}
    (hnodup : order.Nodup) (hmem : participantId ∈ order)
    (hparts : ∀ p ∈ order, ∀ x ∈ parts p, belongs rows p (start x) = true) :
    ((order.flatMap parts).filter fun x => belongs rows participantId (start x)) =
      parts participantId := by
  rw [filter_flatMap_of_mem hnodup hmem]
  · exact List.filter_eq_self.mpr (hparts participantId hmem)
  · intro other hother hne
    refine List.filter_eq_nil_iff.mpr fun x hx hbelongs => ?_
    exact hne (eq_of_belongs (hparts other hother x hx) hbelongs)

theorem finalizeOpenerOutput_eq_ok {output final : EvidencedOutput E} {evidence : OpenerSetEvidence}
    (h : finalizeOpenerOutput openerSet output rows evidence = .ok final) :
    final.startIndices = output.startIndices ∧ final.closes = output.closes ∧
      final.missing = output.missing := by
  unfold finalizeOpenerOutput at h
  obtain ⟨types, _, h⟩ := Stages.bind_eq_ok.mp h
  cases h
  exact ⟨rfl, rfl, rfl⟩

/-- A run checks its input, then matches one participant or merges several. -/
theorem matchAppEpisodesWithStrategy_eq_ok {participantOf : E → String} {output : EvidencedOutput E}
    (h : matchAppEpisodesWithStrategy given participantOf strategy openerSet input rows =
      .ok output) :
    ∃ drafted : EvidencedOutput E,
      (((participantOrder rows).length ≤ 1 ∧
          matchAppEpisodesForOneParticipant given strategy input rows
            (rows.map (eligibleOpener openerSet strategy)) = .ok drafted) ∨
        (1 < (participantOrder rows).length ∧ ∃ merged,
          (participantOrder rows).foldlM
            (matchParticipant given strategy openerSet input rows) {} = .ok merged ∧
          drafted = merged.intoOutput participantOf)) ∧
      output.startIndices = drafted.startIndices ∧ output.closes = drafted.closes ∧
      output.missing = drafted.missing := by
  unfold matchAppEpisodesWithStrategy at h
  obtain ⟨_, _, h⟩ := Stages.bind_eq_ok.mp h
  obtain ⟨_, _, h⟩ := Stages.bind_eq_ok.mp h
  obtain ⟨_, _, h⟩ := Stages.bind_eq_ok.mp h
  split at h
  · next hone =>
      obtain ⟨drafted, hdrafted, h⟩ := Stages.bind_eq_ok.mp h
      exact ⟨drafted, .inl ⟨hone, hdrafted⟩, finalizeOpenerOutput_eq_ok h⟩
  · next hmore =>
      obtain ⟨merged, hmerged, h⟩ := Stages.bind_eq_ok.mp h
      exact ⟨_, .inr ⟨Nat.lt_of_not_le hmore, merged, hmerged, rfl⟩, finalizeOpenerOutput_eq_ok h⟩

/-- Rows of at most one participant have one participant. -/
theorem participantId_eq_of_order (h : (participantOrder rows).length ≤ 1) {first last : Row}
    (hfirst : first ∈ rows) (hlast : last ∈ rows) : first.participantId = last.participantId := by
  have hmem : ∀ row ∈ rows, row.participantId ∈ participantOrder rows := fun row hrow =>
    mem_participantOrder.mpr (List.mem_map_of_mem hrow)
  match horder : participantOrder rows with
  | [] => exact absurd (horder ▸ hmem first hfirst) List.not_mem_nil
  | [only] =>
      have hall := fun row hrow => List.mem_singleton.mp (horder ▸ hmem row hrow)
      exact (hall first hfirst).trans (hall last hlast).symm
  | _ :: _ :: _ =>
      rw [horder] at h
      exact absurd h (by simp)

/-- Each participant gets what its own rows give: as it stands when the table has no other
participant, and else in the order of the start rows. No episode pairs the rows of two
participants. -/
theorem matchAppEpisodes_by_participant {participantOf : E → String} {output : EvidencedOutput E}
    (h : matchAppEpisodesWithStrategy given participantOf strategy openerSet input rows =
      .ok output) :
    ((participantOrder rows).length ≤ 1 → ∃ alone,
      matchAppEpisodesForOneParticipant given strategy input rows
        (rows.map (eligibleOpener openerSet strategy)) = .ok alone ∧
      output.startIndices = alone.startIndices ∧ output.closes = alone.closes ∧
      output.missing = alone.missing) ∧
    (1 < (participantOrder rows).length → ∃ closes, output.closes = .ok closes ∧
      ∀ participantId ∈ rows.map (·.participantId), ∃ share,
        AnswersFor given strategy openerSet input rows participantId share ∧
        output.startIndices.filter (fun start => belongs rows participantId start) =
          sortByKey id share.starts ∧
        closes.filter (fun episode => belongs rows participantId episode.start) =
          sortByKey MergedEpisode.start share.closed ∧
        output.missing.filter (fun entry => belongs rows participantId entry.1) =
          sortByKey Prod.fst share.missing) ∧
    (∀ closes, output.closes = .ok closes → ∀ episode ∈ closes,
      ∀ first ∈ rows[episode.start]?, ∀ last ∈ rows[episode.stop]?,
        first.participantId = last.participantId) := by
  obtain ⟨drafted, hdrafted, hstarts, hcloses, hmissing⟩ := matchAppEpisodesWithStrategy_eq_ok h
  rw [hstarts, hcloses, hmissing]
  rcases hdrafted with ⟨hone, halone⟩ | ⟨hmore, merged, hmerged, rfl⟩
  -- one participant: the rule's output is only given its evidence
  · refine ⟨fun _ => ⟨drafted, halone, rfl, rfl, rfl⟩,
      fun hmore => absurd hone (Nat.not_le.mpr hmore), ?_⟩
    intro closes _ episode _ first hfirst last hlast
    exact participantId_eq_of_order hone (List.mem_of_getElem? hfirst) (List.mem_of_getElem? hlast)
  · have hnodup := nodup_participantOrder rows
    obtain ⟨shares, hshares, hall, hclosed, hgone⟩ := foldlM_matchParticipant_eq_ok hnodup hmerged
    have hwithin := fun p hp => (hshares p hp).within
    rw [closes_intoOutput, missing_intoOutput]
    -- sorting by the start row keeps the part of a participant together, and stably
    refine ⟨fun hone => absurd hone (Nat.not_le.mpr hmore), fun _ => ⟨_, rfl, ?_⟩, ?_⟩
    · intro participantId hparticipant
      have hmem := mem_participantOrder.mpr hparticipant
      refine ⟨shares participantId, hshares participantId hmem, ?_, ?_, ?_⟩
      · show (sortByKey id merged.starts).filter _ = _
        rw [filter_sortByKey_eq, hall, List.nil_append,
          filter_shares hnodup hmem fun p hp => (hwithin p hp).starts]
      · rw [filter_sortByKey_eq, hclosed, List.nil_append,
          filter_shares hnodup hmem fun p hp episode hepisode =>
            ((hwithin p hp).closed episode hepisode).1]
      · rw [filter_sortByKey_eq, hgone, List.nil_append,
          filter_shares hnodup hmem fun p hp => (hwithin p hp).missing]
    · intro closes heq episode hepisode first hfirst last hlast
      cases heq
      rw [mem_sortByKey, hclosed, List.nil_append] at hepisode
      obtain ⟨p, hp, hepisode⟩ := List.mem_flatMap.mp hepisode
      obtain ⟨hstart, hstop⟩ := (hwithin p hp).closed episode hepisode
      rw [belongs, hfirst, Option.any_some, decide_eq_true_eq] at hstart
      rw [belongs, hlast, Option.any_some, decide_eq_true_eq] at hstop
      exact hstart.trans hstop.symm

end Runs

/-! ## Nested uses -/

/-- An event of a package. -/
def packageEvent (participantId package interactionType : String) : Row :=
  { participantId, appPackageName := package, interactionType }

/-- One participant opens a second app within the first; another participant follows. -/
def nestedUseRows : List Row :=
  [packageEvent "P1" "app.a" activityResumed, packageEvent "P1" "app.b" activityResumed,
    packageEvent "P1" "app.b" activityPaused, packageEvent "P1" "app.a" activityPaused,
    packageEvent "P2" "app.a" activityResumed, packageEvent "P2" "app.a" activityPaused]

/-- The arrays of rows, of which the pairing of resumes and pauses reads none. -/
def resumesOf (rows : List Row) : MatcherInput where
  appCodes := rows.map fun _ => 0
  timestamps := rows.map (·.eventTimestampNs)
  resumed := rows.map (·.interactionType = activityResumed)
  sameStop := rows.map fun _ => false
  otherStop := rows.map fun _ => false
  stopped := rows.map fun _ => false
  background := rows.map fun _ => false

/-- Resumes and pauses of the rows are paired. -/
def pairedUses (rows : List Row) : MatcherResult (EvidencedOutput Unit) :=
  matchAppEpisodesWithStrategy (fun _ _ _ _ => .ok {}) (fun _ => "") .foregroundBackgroundPairing
    .strategyDefined (resumesOf rows) rows

theorem exists_pairedUses : ∃ output, pairedUses nestedUseRows = .ok output := by
  have hsome : (pairedUses nestedUseRows).toOption.isSome = true := by decide +kernel
  cases hrun : pairedUses nestedUseRows with
  | ok output => exact ⟨output, rfl⟩
  | error failure =>
      rw [hrun] at hsome
      exact nomatch hsome

theorem matchAppEpisodes_by_participant_nested :
    ∃ output closes, pairedUses nestedUseRows = .ok output ∧ output.closes = .ok closes ∧
      ∃ share, AnswersFor (E := Unit) (fun _ _ _ _ => .ok {}) .foregroundBackgroundPairing
          .strategyDefined (resumesOf nestedUseRows) nestedUseRows "P1" share ∧
        closes.filter (fun episode => belongs nestedUseRows "P1" episode.start) =
          sortByKey MergedEpisode.start share.closed := by
  obtain ⟨output, hrun⟩ := exists_pairedUses
  obtain ⟨_, hmerged, _⟩ := matchAppEpisodes_by_participant hrun
  obtain ⟨closes, hcloses, hall⟩ := hmerged (by decide)
  obtain ⟨share, hshare, _, hclosed, _⟩ := hall "P1" (by decide)
  exact ⟨output, closes, hrun, hcloses, share, hshare, hclosed⟩

/-- By itself the participant's inner use is listed first, since it ends first; beside another
participant it comes second. -/
theorem order_of_nested_uses :
    (pairedUses nestedUseRows).toOption.map (fun output =>
        output.stopStartIndices.filter fun start => belongs nestedUseRows "P1" start) =
      some [0, 1] ∧
    (pairedUses (nestedUseRows.filter fun row => row.participantId = "P1")).toOption.map
      (·.stopStartIndices) = some [1, 0] ∧
    indicesOf nestedUseRows "P1" = [0, 1, 2, 3] := by
  refine ⟨by decide +kernel, by decide +kernel, by decide +kernel⟩

end Chronicle.Pipeline
