import Chronicle.Matcher.OverlapLayers
import Chronicle.Pipeline.Run

/-!
# What the later stages keep of a row

Every stage after the classification makes its rows from the rows it is given. Outside the screen
bound such a row keeps its aggregate eligibility, a blanked duration stays blank, and an episode
without an observed end gets none.
-/

namespace Chronicle.Pipeline

open Chronicle.Library Chronicle.Library.Loop Chronicle.Library.Machine Chronicle.Library.Stages
  Chronicle.Library.StableSort Chronicle.Matcher

/-- The row publishes no duration. -/
def Row.Unpublished (row : Row) : Prop := row.durationSeconds = none ∧ row.durationMinutes = none

/-- A duration that the minimum blanked is not published. -/
def Row.Settled (row : Row) : Prop := row.minimumDurationBlankApplied = true → row.Unpublished

/-- A row labelled as unended has no stop and no duration. -/
def Row.Unended (row : Row) : Prop :=
  row.interactionType = endOfUsageMissing → row.stopTimestampNs = none ∧ row.Unpublished

/-- What a row keeps of the row it was made from. -/
structure Descends (row later : Row) : Prop where
  minimumEligible :
    later.minimumDurationAggregateEligible = row.minimumDurationAggregateEligible
  maximumEligible :
    later.maximumDurationAggregateEligible = row.maximumDurationAggregateEligible
  settled : row.Settled → later.Settled
  unended : row.Unended → later.Unended

/-- Every row of the later table is made from a row of the earlier one. -/
def DescendsFrom (rows later : List Row) : Prop := ∀ row' ∈ later, ∃ row ∈ rows, Descends row row'

variable {row later : Row} {rows later' : List Row}

@[refl]
theorem Descends.refl (row : Row) : Descends row row := ⟨rfl, rfl, id, id⟩

theorem Descends.trans {last : Row} (h : Descends row later) (h' : Descends later last) :
    Descends row last where
  minimumEligible := h'.minimumEligible.trans h.minimumEligible
  maximumEligible := h'.maximumEligible.trans h.maximumEligible
  settled := h'.settled ∘ h.settled
  unended := h'.unended ∘ h.unended

/-- A row that changes neither its timing nor its label. -/
theorem Descends.of_eq (htiming : later.toEpisodeTiming = row.toEpisodeTiming)
    (hlabel : later.interactionType = row.interactionType) : Descends row later := by
  refine ⟨?_, ?_, ?_, ?_⟩
  · rw [htiming]
  · rw [htiming]
  · unfold Row.Settled Row.Unpublished
    rw [htiming]
    exact id
  · unfold Row.Unended Row.Unpublished
    rw [htiming, hlabel]
    exact id

/-- A bounded row under another bounded label. -/
theorem Descends.of_relabel (htiming : later.toEpisodeTiming = row.toEpisodeTiming)
    (hlabel : later.interactionType ≠ endOfUsageMissing) : Descends row later := by
  refine ⟨?_, ?_, ?_, fun _ hmissing => absurd hmissing hlabel⟩
  · rw [htiming]
  · rw [htiming]
  · unfold Row.Settled Row.Unpublished
    rw [htiming]
    exact id

/-! ## Tables -/

theorem DescendsFrom.refl (rows : List Row) : DescendsFrom rows rows :=
  fun row hrow => ⟨row, hrow, .refl row⟩

theorem DescendsFrom.trans {middle last : List Row} (h : DescendsFrom rows middle)
    (h' : DescendsFrom middle last) : DescendsFrom rows last := by
  intro row hrow
  obtain ⟨mid, hmid, hlast⟩ := h' row hrow
  obtain ⟨first, hfirst, hmiddle⟩ := h mid hmid
  exact ⟨first, hfirst, hmiddle.trans hlast⟩

theorem DescendsFrom.of_subset {kept : List Row} (h : kept ⊆ rows) : DescendsFrom rows kept :=
  fun row hrow => ⟨row, h hrow, .refl row⟩

theorem DescendsFrom.map {f : Row → Row} (h : ∀ row, Descends row (f row)) (rows : List Row) :
    DescendsFrom rows (rows.map f) := by
  intro later hlater
  obtain ⟨row, hrow, rfl⟩ := List.mem_map.mp hlater
  exact ⟨row, hrow, h row⟩

theorem DescendsFrom.append {first second : List Row} (hfirst : DescendsFrom rows first)
    (hsecond : DescendsFrom rows second) : DescendsFrom rows (first ++ second) := by
  intro later hlater
  rcases List.mem_append.mp hlater with h | h
  · exact hfirst later h
  · exact hsecond later h

/-- A rewrite in place keeps the descent. -/
theorem DescendsFrom.modify {written : List Row} {f : Row → Row} {i : Nat}
    (h : DescendsFrom rows written) (hf : ∀ row, written[i]? = some row → Descends row (f row)) :
    DescendsFrom rows (written.modify i f) := by
  intro later hlater
  rcases mem_modify hlater with hlater | ⟨row, hrow, rfl⟩
  · exact h later hlater
  · obtain ⟨source, hsource, hdescends⟩ := h row (List.mem_of_getElem? hrow)
    exact ⟨source, hsource, hdescends.trans (hf row hrow)⟩

theorem descendsFrom_orderAppEpisodes (rows : List Row) :
    DescendsFrom rows (orderAppEpisodes rows) :=
  .of_subset fun _ h => mem_sortByKey.mp h

/-! ## Durations of rows -/

theorem Row.Unpublished.settled (h : row.Unpublished) : row.Settled := fun _ => h

/-- A row whose durations are cleared and whose label and stop stay, or lose their meaning. -/
theorem Descends.of_blank
    (hminimum : later.minimumDurationAggregateEligible = row.minimumDurationAggregateEligible)
    (hmaximum : later.maximumDurationAggregateEligible = row.maximumDurationAggregateEligible)
    (hblank : later.Unpublished)
    (hstop : later.interactionType = endOfUsageMissing → later.stopTimestampNs = none) :
    Descends row later :=
  ⟨hminimum, hmaximum, fun _ => hblank.settled, fun _ hmissing => ⟨hstop hmissing, hblank⟩⟩

/-- A bounded row that gets other bounds and keeps its durations. -/
theorem Descends.of_bounds {start stop : Option Int} (hbounded : row.interactionType ≠ endOfUsageMissing) :
    Descends row { row with startTimestampNs := start, stopTimestampNs := stop } :=
  ⟨rfl, rfl, id, fun _ hmissing => absurd hmissing hbounded⟩

/-- A row with a stop has, if it is labelled as unended, lost that property before. -/
theorem Descends.of_stop
    (hminimum : later.minimumDurationAggregateEligible = row.minimumDurationAggregateEligible)
    (hmaximum : later.maximumDurationAggregateEligible = row.maximumDurationAggregateEligible)
    (hsettled : row.Settled → later.Settled) (hlabel : later.interactionType = row.interactionType)
    (hstop : row.stopTimestampNs ≠ none) : Descends row later :=
  ⟨hminimum, hmaximum, hsettled, fun hunended hmissing =>
    absurd (hunended (hlabel ▸ hmissing)).1 hstop⟩

theorem descends_clearTiming (row : Row) : Descends row row.clearTiming :=
  .of_blank rfl rfl ⟨rfl, rfl⟩ fun _ => rfl

/-! ## Inclusion and layers -/

theorem descends_includeRow (filteredPackages filteredApplicationLabels backgroundApps : List String)
    (row : Row) :
    Descends row (includeRow filteredPackages filteredApplicationLabels backgroundApps row) := by
  unfold includeRow
  split
  · exact .refl row
  split
  · exact .of_relabel rfl (by simp [filteredAppBackgroundUsage, endOfUsageMissing])
  split
  · refine .of_blank rfl rfl ⟨rfl, rfl⟩ fun hmissing => ?_
    simp [filteredAppUsage, endOfUsageMissing] at hmissing
  split
  · exact .of_blank rfl rfl ⟨rfl, rfl⟩ fun _ => rfl
  · exact descends_clearTiming row

theorem descendsFrom_applyAppInclusionPolicy (rows : List Row)
    (filteredPackages filteredApplicationLabels backgroundApps : List String) :
    DescendsFrom rows (applyAppInclusionPolicy rows filteredPackages filteredApplicationLabels
      backgroundApps) :=
  (DescendsFrom.of_subset (List.filter_subset_self _)).trans
    (.map (descends_includeRow filteredPackages filteredApplicationLabels backgroundApps) _)

/-- A layered piece preserves the blank of its episode. -/
theorem descends_layeredRow {filteredPackages : List String} (threshold : Option Int)
    (applyMinimum : Bool) (session : LayeredSession) (h : isLayered filteredPackages row = true) :
    Descends row (layeredRow threshold applyMinimum row session) := by
  have hlabel : row.interactionType = appUsage := by
    simp only [isLayered, Bool.and_eq_true, decide_eq_true_eq] at h
    exact h.1
  have hbounded : row.interactionType ≠ endOfUsageMissing := by
    rw [hlabel]
    simp [appUsage, endOfUsageMissing]
  unfold layeredRow
  dsimp only
  split
  · exact .of_blank rfl rfl ⟨rfl, rfl⟩ fun hmissing => absurd hmissing hbounded
  · next hblank =>
      refine ⟨rfl, rfl, fun _ happlied => ?_, fun _ hmissing => absurd hmissing hbounded⟩
      exact absurd (Bool.or_eq_true_iff.mpr (.inl happlied)) hblank

theorem descendsFrom_layerParticipant {filteredPackages : List String} {rules : ConcurrencyRules}
    {minimumUsageDuration : Binary64} {participantId : String} {layered : List Row}
    (h : layerParticipant filteredPackages rules minimumUsageDuration rows participantId =
      .ok layered) : DescendsFrom rows layered := by
  unfold layerParticipant splitSessions at h
  dsimp only at h
  split at h
  case h_1 sessions hsessions =>
    cases h
    intro later hlater
    obtain ⟨session, hsession, rfl⟩ := List.mem_map.mp hlater
    have hindex := sessionIndex_lt_of_ok hsessions hsession
    rw [List.length_map] at hindex
    have hepisode := List.mem_filter.mp (rowAt_mem hindex)
    have hlayered := (Bool.and_eq_true_iff.mp hepisode.2).1
    exact ⟨_, hepisode.1, descends_layeredRow _ _ session hlayered⟩
  all_goals cases h

theorem descendsFrom_segmentConcurrentUsage {filteredPackages backgroundApps : List String}
    {rules : ConcurrencyRules} {minimumUsageDuration : Binary64} {segmented : List Row}
    (h : segmentConcurrentUsage rows filteredPackages backgroundApps rules minimumUsageDuration =
      .ok segmented) : DescendsFrom rows segmented := by
  unfold segmentConcurrentUsage at h
  split at h
  · cases h
    exact descendsFrom_orderAppEpisodes rows
  · cases hlayers : (rowParticipants (rows.filter (isLayered filteredPackages))).mapM
        (layerParticipant filteredPackages rules minimumUsageDuration rows) with
    | error error => simp [hlayers, bind, Except.bind] at h
    | ok layered =>
        simp only [hlayers, bind, Except.bind, pure, Except.pure, Except.ok.injEq] at h
        subst h
        refine .trans (.append (.of_subset (List.filter_subset_self _)) fun later hlater => ?_)
          (descendsFrom_orderAppEpisodes _)
        obtain ⟨pieces, hpieces, hlater⟩ := List.mem_flatten.mp hlater
        obtain ⟨participantId, -, hok⟩ := mem_of_mapM_ok hlayers hpieces
        exact descendsFrom_layerParticipant hok later hlater

/-! ## Annotations -/

theorem descends_joinCodebookRow (schema : CodebookSchema) (codebookMap : CodebookMap) (row : Row) :
    Descends row (joinCodebookRow schema codebookMap row) := .of_eq rfl rfl

theorem descendsFrom_joinCodebook (rows : List Row) (schema : Option CodebookSchema)
    (codebookMap : CodebookMap) : DescendsFrom rows (joinCodebook rows schema codebookMap) := by
  unfold joinCodebook
  split
  · exact .refl rows
  · exact .map (descends_joinCodebookRow _ codebookMap) rows

theorem descends_deriveBroadCategoryRow (indices : List Nat) (row : Row) :
    Descends row (deriveBroadCategoryRow indices row) := .of_eq rfl rfl

theorem descendsFrom_deriveBroadCategory (rows : List Row) (schema : Option CodebookSchema) :
    DescendsFrom rows (deriveBroadCategory rows schema) := by
  unfold deriveBroadCategory
  split
  · exact .refl rows
  · exact .map (descends_deriveBroadCategoryRow _) rows

theorem descends_collapseAppGenreRow (genreFields : List Nat) (row : Row) :
    Descends row (collapseAppGenreRow genreFields row) := by
  unfold collapseAppGenreRow
  split
  · exact .of_eq rfl rfl
  split
  · exact .of_eq rfl rfl
  · exact .of_eq rfl rfl

theorem descendsFrom_collapseAppGenre (rows : List Row) (schema : Option CodebookSchema) :
    DescendsFrom rows (collapseAppGenre rows schema) := by
  unfold collapseAppGenre
  split
  · exact .refl rows
  · exact .map (descends_collapseAppGenreRow _) rows

theorem descends_engagementStep (customDuration : Binary64) (state : EngagementState) (row : Row) :
    Descends row (engagementStep customDuration state row).2 := by
  unfold engagementStep
  split
  · dsimp only
    split
    · exact .of_eq rfl rfl
    · exact .of_eq rfl rfl
  · exact .refl row

theorem descendsFrom_deriveEngagementBasis (rows : List Row) (customDuration : Binary64) :
    DescendsFrom rows (deriveEngagementBasis rows customDuration) := by
  intro later hlater
  obtain ⟨row, hrow, before, rfl⟩ := exists_of_mem_walk hlater
  exact ⟨row, hrow, descends_engagementStep customDuration before row⟩

theorem descends_markAppUsageFlagsRow (thresholds : PreparedUsageFlags) (row : Row) :
    Descends row (markAppUsageFlagsRow thresholds row) := .of_eq rfl rfl

theorem descendsFrom_applyEpisodeFlags (formatThreshold : Binary64 → String) (rows : List Row)
    (longDataTimeGapThresholds longUsageDurationThresholds : List Binary64) :
    DescendsFrom rows (applyEpisodeFlags formatThreshold rows longDataTimeGapThresholds
      longUsageDurationThresholds) :=
  .map (descends_markAppUsageFlagsRow _) rows

theorem descendsFrom_suppressExcludedTiming (rows : List Row) :
    DescendsFrom rows (suppressExcludedTiming rows) := by
  refine .map (fun row => ?_) rows
  unfold clearFilteredUsageTimingRow
  split
  · exact descends_clearTiming row
  · exact .refl row

/-! ## The interval policy -/

theorem stop_ne_none_of_span (h : (culverhouseSpanNs row).isSome) : row.stopTimestampNs ≠ none := by
  intro hstop
  unfold culverhouseSpanNs at h
  simp [hstop] at h

theorem descends_pushRowFlag (row : Row) (flag : String) : Descends row (pushRowFlag row flag) :=
  .of_eq rfl rfl

/-- A truncated row publishes a duration only where it had one. -/
theorem descends_culverhouseTruncateRow (h : row.stopTimestampNs ≠ none) (start spanNs : Int) :
    Descends row (culverhouseTruncateRow row start spanNs) := by
  unfold culverhouseTruncateRow
  dsimp only
  split
  · next hhad =>
      refine .of_stop rfl rfl (fun hsettled happlied => ?_) rfl h
      obtain ⟨hseconds, hminutes⟩ := hsettled happlied
      simp [hseconds, hminutes] at hhad
  · exact .of_stop rfl rfl id rfl h

theorem mergeTarget_spec {c : Collapse} {position : Nat} {start span : Int}
    (h : mergeTarget c row = some (position, start, span)) :
    ∃ target, c.out[position]? = some target ∧ (culverhouseSpanNs target).isSome := by
  simp only [mergeTarget, bind, Option.bind_eq_some_iff] at h
  obtain ⟨previous, -, own, -, target, htarget, targetSpan, hspan, h⟩ := h
  split at h
  · cases h
    exact ⟨target, htarget, Option.isSome_of_mem hspan⟩
  · cases h

theorem descendsFrom_collapseStep {c : Collapse} (h : DescendsFrom rows c.out) (row : Row)
    (hrow : row ∈ rows) : DescendsFrom rows (collapseStep c row).out := by
  have hpush : DescendsFrom rows (c.out ++ [row]) :=
    h.append fun later hlater => ⟨row, hrow, List.mem_singleton.mp hlater ▸ .refl row⟩
  unfold collapseStep
  split
  · exact hpush
  split
  · next position start span htarget =>
      obtain ⟨target, hget, hspan⟩ := mergeTarget_spec htarget
      refine h.modify fun merged hmerged => ?_
      obtain rfl := Option.some.inj (hget.symm.trans hmerged)
      exact (descends_culverhouseTruncateRow (stop_ne_none_of_span hspan) start span).trans
        (descends_pushRowFlag _ _)
  · exact hpush

theorem descendsFrom_culverhouseCollapseSameApp (rows : List Row) :
    DescendsFrom rows (culverhouseCollapseSameApp rows) := by
  suffices h : ∀ (later : List Row) (c : Collapse), later ⊆ rows → DescendsFrom rows c.out →
      DescendsFrom rows (later.foldl collapseStep c).out from
    h rows _ (List.Subset.refl rows) fun row hrow => absurd hrow List.not_mem_nil
  intro later
  induction later with
  | nil => exact fun c _ h => h
  | cons row later ih =>
      intro c hsub h
      exact ih _ (fun x hx => hsub (List.mem_cons_of_mem row hx))
        (descendsFrom_collapseStep h row (hsub List.mem_cons_self))

@[simp]
theorem culverhouseTruncateRow_blank (row : Row) (start spanNs : Int) :
    (culverhouseTruncateRow row start spanNs).minimumDurationBlankApplied =
      row.minimumDurationBlankApplied := by
  unfold culverhouseTruncateRow
  dsimp only
  split
  · rfl
  · rfl

@[simp]
theorem culverhouseTruncateRow_label (row : Row) (start spanNs : Int) :
    (culverhouseTruncateRow row start spanNs).interactionType = row.interactionType := by
  unfold culverhouseTruncateRow
  dsimp only
  split
  · rfl
  · rfl

theorem flagImplausibleSpan_timing (row : Row) (span : Int) :
    (flagImplausibleSpan row span).toEpisodeTiming = row.toEpisodeTiming ∧
      (flagImplausibleSpan row span).interactionType = row.interactionType := by
  unfold flagImplausibleSpan
  dsimp only
  split <;> split <;> try split
  all_goals exact ⟨rfl, rfl⟩

theorem descends_truncateImplausibleRow (formatNumber : Binary64 → String) (start span bound : Int)
    (h : row.stopTimestampNs ≠ none) :
    Descends row (truncateImplausibleRow formatNumber row start span bound) := by
  obtain ⟨htiming, hlabel⟩ := flagImplausibleSpan_timing row span
  have hflagged : Descends row (flagImplausibleSpan row span) := .of_eq htiming hlabel
  unfold truncateImplausibleRow
  dsimp only
  split
  · have hstop : (flagImplausibleSpan row span).stopTimestampNs ≠ none := by rwa [htiming]
    exact (hflagged.trans (descends_culverhouseTruncateRow hstop start bound)).trans
      (descends_pushRowFlag _ _)
  · exact hflagged

theorem truncateImplausibleRow_kept (formatNumber : Binary64 → String) (row : Row)
    (start span bound : Int) :
    (truncateImplausibleRow formatNumber row start span bound).minimumDurationBlankApplied =
        row.minimumDurationBlankApplied ∧
      (truncateImplausibleRow formatNumber row start span bound).interactionType =
        row.interactionType := by
  obtain ⟨htiming, hlabel⟩ := flagImplausibleSpan_timing row span
  unfold truncateImplausibleRow
  dsimp only
  split
  · simp [pushTruncationFlag, pushRowFlag, htiming, hlabel]
  · exact ⟨by rw [htiming], hlabel⟩

/-- A bounded interval is credited only where no blank stands. -/
theorem descends_boundImplausibleRow (formatNumber : Binary64 → String) (row : Row) :
    Descends row (boundImplausibleRow formatNumber row) := by
  unfold boundImplausibleRow
  split
  · exact .refl row
  · next start stop hspan =>
      have hstop : row.stopTimestampNs ≠ none := stop_ne_none_of_span (by simp [hspan])
      have htruncated := descends_truncateImplausibleRow formatNumber start (wrap64 (stop - start))
        (implausibleBound row (wrap64 (stop - start))) hstop
      dsimp only
      split
      · next hcredit =>
          simp only [Bool.and_eq_true, decide_eq_true_eq, Bool.not_eq_true'] at hcredit
          obtain ⟨hblank, hlabel⟩ := truncateImplausibleRow_kept formatNumber row start
            (wrap64 (stop - start)) (implausibleBound row (wrap64 (stop - start)))
          refine .of_stop htruncated.minimumEligible htruncated.maximumEligible
            (fun _ happlied => ?_) hlabel hstop
          rw [hcredit.1.2] at hblank
          exact absurd (hblank.symm.trans happlied) Bool.false_ne_true
      · exact htruncated

theorem descends_restoreFilteredInterval (row : Row) :
    Descends row (restoreFilteredInterval row) := by
  unfold restoreFilteredInterval
  split
  · next hfiltered =>
      split
      · refine .of_bounds ?_
        rw [hfiltered.1]
        simp [filteredAppUsage, endOfUsageMissing]
      · exact .refl row
  · exact .refl row

theorem descends_flagDay (calendar : Calendar) (days : ObservedDays) (row : Row) :
    Descends row (flagDay calendar days row) := by
  unfold flagDay
  dsimp only
  split
  · exact .refl row
  split <;> split
  all_goals exact .of_eq rfl rfl

theorem descendsFrom_intervalQualityStep (calendar : Calendar) (formatNumber : Binary64 → String)
    (rows : List Row) (policy : IntervalQualityPolicy) :
    DescendsFrom rows (intervalQualityStep calendar formatNumber rows policy) := by
  cases policy with
  | none => exact descendsFrom_suppressExcludedTiming rows
  | culverhouseTrimAndLog =>
      have hrestored := DescendsFrom.map descends_restoreFilteredInterval rows
      have hcollapsed := hrestored.trans (descendsFrom_culverhouseCollapseSameApp _)
      have hbounded := hcollapsed.trans (.map (descends_boundImplausibleRow formatNumber) _)
      exact hbounded.trans (.map (descends_flagDay calendar _) _)

/-! ## Cleaning -/

theorem descends_numberRow (rules : SessionGroupingRules) (session : Int) (flag : String)
    (row : Row) : Descends row (numberRow rules session flag row) := by
  unfold numberRow
  dsimp only
  split
  · exact .of_eq rfl rfl
  · exact .of_eq rfl rfl

theorem descendsFrom_numberPartition {formatNumber : Binary64 → String}
    {rules : SessionGroupingRules} {threshold : SessionGapThreshold} {numbered : List Row}
    (h : DescendsFrom rows numbered) (key : SessionPartitionKey) :
    DescendsFrom rows (numberPartition formatNumber rules threshold numbered key) := by
  unfold numberPartition
  dsimp only
  generalize partitionOrder numbered rules.scope key = order
  suffices hwalk : ∀ (doubled : Option Int) (count : Nat) (w : SessionWalk),
      DescendsFrom rows w.rows →
      DescendsFrom rows (order.foldl (sessionStep formatNumber rules doubled count) w).rows from
    hwalk _ _ _ h
  intro doubled count
  induction order with
  | nil => exact fun w hw => hw
  | cons index order ih =>
      intro w hw
      refine ih _ ?_
      unfold sessionStep
      dsimp only
      split
      · exact hw.modify fun row _ => descends_numberRow rules _ _ row
      · exact hw.modify fun row _ => descends_numberRow rules _ _ row

theorem descendsFrom_assignUsageSessionIds (formatNumber : Binary64 → String) (rows : List Row)
    (rules : SessionGroupingRules) :
    DescendsFrom rows (assignUsageSessionIds formatNumber rows rules) := by
  unfold assignUsageSessionIds
  split
  · exact .refl rows
  · next threshold _ =>
      suffices h : ∀ (keys : List SessionPartitionKey) (numbered : List Row),
          DescendsFrom rows numbered →
          DescendsFrom rows (keys.foldl (numberPartition formatNumber rules threshold) numbered)
        from h _ rows (.refl rows)
      intro keys
      induction keys with
      | nil => exact fun numbered h => h
      | cons key keys ih => exact fun numbered h => ih _ (descendsFrom_numberPartition h key)

/-! ## Attribution -/

theorem descends_attributeSharedRow (survey : String × Int → Option String) (row : Row) :
    Descends row (attributeSharedRow survey row) := by
  unfold attributeSharedRow
  dsimp only
  split
  all_goals
    split
    · exact .of_relabel rfl (by simp [nonTargetParticipantAppUsage, endOfUsageMissing])
    · exact .of_eq rfl rfl

theorem descendsFrom_attributePerson {statusByParticipant : List (String × SharingStatus)}
    {survey : String × Int → Option String} {attributed : List Row}
    (h : attributePerson rows statusByParticipant survey = .ok attributed) :
    DescendsFrom rows attributed := by
  intro later hlater
  obtain ⟨row, hrow, hok⟩ := mem_of_mapM_ok h hlater
  unfold attributeRow at hok
  split at hok
  · cases hok
  · cases hok
    exact ⟨row, hrow, .of_eq rfl rfl⟩
  · cases hok
    exact ⟨row, hrow, descends_attributeSharedRow survey row⟩

/-- A part of a session inherits the blank of the whole. -/
theorem descends_midnightPiece (zone : Zone) (part : Nat) (left right : Int)
    (h : row.stopTimestampNs ≠ none) : Descends row (midnightPiece zone row part left right) := by
  unfold midnightPiece
  dsimp only
  split
  · exact .of_stop rfl rfl (fun _ _ => ⟨rfl, rfl⟩) rfl h
  · next hpublished =>
      refine .of_stop rfl rfl (fun hsettled happlied => ?_) rfl h
      simp [(hsettled happlied).1] at hpublished

theorem descendsFrom_splitAtMidnight (calendar : Calendar) (row : Row) :
    DescendsFrom [row] (splitAtMidnight calendar row) := by
  unfold splitAtMidnight
  split
  · next start stop zone _ hstop _ =>
      dsimp only
      split
      · exact .refl [row]
      · intro later hlater
        obtain ⟨entry, -, rfl⟩ := List.mem_map.mp hlater
        exact ⟨row, List.mem_singleton_self row,
          descends_midnightPiece zone entry.1 entry.2.1 entry.2.2 (by simp [hstop])⟩
  · exact .refl [row]

theorem descendsFrom_splitSessionsAtLocalMidnight (calendar : Calendar) (rows : List Row)
    (rule : DayBoundaryAttribution) :
    DescendsFrom rows (splitSessionsAtLocalMidnight calendar rows rule) := by
  cases rule with
  | attributeToStartDay => exact .refl rows
  | splitAtLocalMidnight =>
      intro later hlater
      obtain ⟨row, hrow, hlater⟩ := List.mem_flatMap.mp hlater
      obtain ⟨source, hsource, hdescends⟩ := descendsFrom_splitAtMidnight calendar row later hlater
      exact ⟨row, hrow, List.mem_singleton.mp hsource ▸ hdescends⟩

theorem placeholderDaySamples_subset (rawRows : List Row) :
    placeholderDaySamples rawRows ⊆ rawRows := by
  suffices h : ∀ (later samples : List Row), later ⊆ rawRows → samples ⊆ rawRows →
      later.foldl recordSample samples ⊆ rawRows from
    h rawRows [] (List.Subset.refl rawRows) (List.nil_subset rawRows)
  intro later
  induction later with
  | nil => exact fun samples _ h => h
  | cons row later ih =>
      intro samples hsub hsamples
      refine ih _ (fun x hx => hsub (List.mem_cons_of_mem row hx)) ?_
      have hrow : row ∈ rawRows := hsub List.mem_cons_self
      intro sample hsample
      unfold recordSample at hsample
      dsimp only at hsample
      split at hsample
      · obtain ⟨old, hold, rfl⟩ := List.mem_map.mp hsample
        split
        · exact hrow
        · exact hsamples hold
      · rcases List.mem_append.mp hsample with h | h
        · exact hsamples h
        · exact List.mem_singleton.mp h ▸ hrow

/-- A row of the table with placeholders is one of the rows or the placeholder of a sample. -/
theorem mem_addPlaceholderRows {calendar : Calendar} {samples : List Row}
    {windows : Option (List ResolvedParticipantWindow)}
    (h : row ∈ addPlaceholderRowsForSamples calendar rows samples windows) :
    row ∈ rows ∨ ∃ sample ∈ samples, row = placeholderRow calendar sample := by
  rcases List.mem_append.mp (mem_sortByKey.mp h) with h | h
  · exact Or.inl h
  · obtain ⟨sample, hsample, rfl⟩ := List.mem_map.mp h
    exact Or.inr ⟨sample, List.mem_of_mem_filter hsample, rfl⟩

end Chronicle.Pipeline
