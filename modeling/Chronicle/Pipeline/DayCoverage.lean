import Chronicle.Pipeline.DateStrings
import Chronicle.Pipeline.Totals

/-!
# What the day coverage says

Every day of a participant's spine should be listed once, with usage if an app session is credited
to it, and otherwise by whether a raw event fell on it. A row with a blank participant counts for
one participant wherever it stands; the index of usage days does not know that one by its name.
-/

namespace Chronicle.Pipeline

open Chronicle.Library Chronicle.Library.StableSort Chronicle.Library.Stages Credit

/-! ## The days of a participant -/

section Days

variable (calendar : Calendar) (rawRows usageRows : List Row) (windows : List StudyWindow)

/-- An app session is credited to the participant on the date. -/
def UsedOn (participantId date : String) : Prop :=
  ∃ row ∈ usageRows, marksUsage row = true ∧ witnessKey row.participantId = participantId ∧
    row.date = date

/-- A raw event of the participant fell on the date. -/
def SeenOn (participantId date : String) : Prop :=
  ∃ row ∈ rawRows, witnessKey row.participantId = participantId ∧ row.date = date

/-- The participant has a raw event or a credited session. -/
def IsObserved (participantId : String) : Prop :=
  ∃ date, SeenOn rawRows participantId date ∨ UsedOn usageRows participantId date

/-- The dates of the raw events and the credited sessions, in ascending order. -/
def dataDates (participantId : String) : List String :=
  sortByKey id (((rawRows ++ usageRows.filter marksUsage).filter fun row =>
    witnessKey row.participantId = participantId).map Row.date).dedup

/-- The date is in the study window and in none of its exclusions or, without a window, lies
between the first and the last date with data. -/
def OnSpine (participantId date : String) : Prop :=
  ∃ spine, daySpine calendar (windowFor participantId windows)
    (dataDates rawRows usageRows participantId) = .ok spine ∧ date ∈ spine

/-- The coverage lists each day of each spine once, with the right status. -/
structure CoversDays (coverage : List CoverageDay) : Prop where
  once : (coverage.map fun entry => (entry.participantId, entry.date)).Nodup
  listed : ∀ participantId date, (∃ entry ∈ coverage, entry.participantId = participantId ∧
    entry.date = date) ↔ IsObserved rawRows usageRows participantId ∧
      OnSpine calendar rawRows usageRows windows participantId date
  usage : ∀ entry ∈ coverage, entry.status = "usage" ↔
    UsedOn usageRows entry.participantId entry.date
  noActivity : ∀ entry ∈ coverage, entry.status = "no_activity" ↔
    ¬ UsedOn usageRows entry.participantId entry.date ∧
      SeenOn rawRows entry.participantId entry.date
  noData : ∀ entry ∈ coverage, entry.status = "no_data" ↔
    ¬ UsedOn usageRows entry.participantId entry.date ∧
      ¬ SeenOn rawRows entry.participantId entry.date

end Days

/-! ## Spines -/

section Spines

variable {calendar : Calendar} {spine : List String}

theorem nodup_inclusiveDates {first last : String}
    (h : inclusiveDates calendar first last = .ok spine) : spine.Nodup := by
  unfold inclusiveDates at h
  split at h
  · cases h
  · cases h
  · split at h
    · cases h
    · cases h
      refine List.nodup_range.map fun i j hdate => ?_
      have hday := dateString_injective hdate
      omega

theorem nodup_daySpine {window : Option StudyWindow} {allDates : List String}
    (h : daySpine calendar window allDates = .ok spine) : spine.Nodup := by
  unfold daySpine at h
  split at h
  · obtain ⟨dates, hdates, rfl⟩ := map_eq_ok.mp h
    exact (nodup_inclusiveDates hdates).filter _
  · split at h
    · exact nodup_inclusiveDates h
    · cases h
      exact List.nodup_nil

end Spines

/-! ## What is listed -/

section Listed

variable {calendar : Calendar} {used raw : List ParticipantDay} {windows : List StudyWindow}
  {participantId : String} {days coverage : List CoverageDay}

theorem mem_datesOf {date : String} : date ∈ datesOf used participantId ↔ (participantId, date) ∈ used := by
  simp [datesOf]

/-- The dates of a participant in both indexes. -/
def bothDates (raw used : List ParticipantDay) (participantId : String) : List String :=
  sortByKey id (datesOf raw participantId ++ datesOf used participantId).dedup

theorem participantCoverage_ok (h : participantCoverage calendar used raw windows participantId =
    .ok days) :
    ∃ spine, daySpine calendar (windowFor participantId windows)
        (bothDates raw used participantId) = .ok spine ∧
      days = (spine.map fun date => ⟨participantId, date,
        dayStatus (datesOf used participantId) (datesOf raw participantId) date⟩) ∧
      ∀ date ∈ bothDates raw used participantId,
        (windowFor participantId windows).all (fun window => window.keepsDate date) = true →
          date ∈ spine := by
  unfold participantCoverage at h
  obtain ⟨spine, hspine, h⟩ := bind_eq_ok.mp h
  refine ⟨spine, hspine, ?_⟩
  dsimp only at h
  split at h
  · cases h
  · case h_2 hcovered =>
    obtain rfl := Except.ok.inj h
    refine ⟨rfl, fun date hdate hkept => ?_⟩
    have hnone := List.find?_eq_none.mp hcovered date hdate
    simpa [hkept] using hnone

/-- What a coverage that is returned lists: for each participant of the indexes its spine. -/
theorem buildCoverage_ok {usageRows : List Row}
    (h : buildCoverage calendar usageRows raw windows = .ok coverage) :
    ∃ listing : String → List CoverageDay,
      coverage = (sortByKey id ((raw ++ usageDates usageRows).map Prod.fst).dedup).flatMap listing ∧
      ∀ participantId ∈ (raw ++ usageDates usageRows).map Prod.fst,
        participantCoverage calendar (usageDates usageRows) raw windows participantId =
          .ok (listing participantId) := by
  unfold buildCoverage at h
  obtain ⟨lists, hlists, rfl⟩ := map_eq_ok.mp h
  obtain ⟨listing, hlisting⟩ : ∃ listing : String → List CoverageDay, ∀ participantId days,
      participantCoverage calendar (usageDates usageRows) raw windows participantId = .ok days →
        days = listing participantId :=
    ⟨fun participantId => ((participantCoverage calendar (usageDates usageRows) raw windows
      participantId).toOption).getD [], fun participantId days hdays => by
        simp [hdays, Except.toOption]⟩
  refine ⟨listing, ?_, fun participantId hmem => ?_⟩
  · rw [eq_map_of_mapM_ok hlisting hlists, List.flatMap_def]
  · obtain ⟨days, hdays⟩ := exists_ok_of_mapM_ok hlists
      (mem_sortByKey.mpr (List.mem_dedup.mpr hmem))
    rw [hdays, hlisting participantId days hdays]

/-- No participant and date are listed twice. -/
theorem nodup_buildCoverage {usageRows : List Row}
    (h : buildCoverage calendar usageRows raw windows = .ok coverage) :
    (coverage.map fun entry => (entry.participantId, entry.date)).Nodup := by
  obtain ⟨listing, rfl, hlisting⟩ := buildCoverage_ok h
  have hkeys : ∀ participantId ∈ sortByKey id ((raw ++ usageDates usageRows).map Prod.fst).dedup,
      ∃ spine : List String, spine.Nodup ∧
        (listing participantId).map (fun entry => (entry.participantId, entry.date)) =
          spine.map fun date => (participantId, date) := by
    intro participantId hmem
    obtain ⟨spine, hspine, hdays, -⟩ := participantCoverage_ok
      (hlisting participantId (List.mem_dedup.mp (mem_sortByKey.mp hmem)))
    exact ⟨spine, nodup_daySpine hspine, by rw [hdays, List.map_map]; rfl⟩
  rw [List.map_flatMap, List.nodup_flatMap]
  refine ⟨fun participantId hmem => ?_, ?_⟩
  · obtain ⟨spine, hnodup, hlist⟩ := hkeys participantId hmem
    rw [hlist]
    exact hnodup.map fun date date' heq => (Prod.mk.inj heq).2
  · have hparticipants : (sortByKey id ((raw ++ usageDates usageRows).map Prod.fst).dedup).Nodup :=
      (perm_sortByKey _ _).nodup_iff.mpr (List.nodup_dedup _)
    refine hparticipants.imp_of_mem fun {p q} hp hq hne => ?_
    obtain ⟨first, -, hfirst⟩ := hkeys p hp
    obtain ⟨second, -, hsecond⟩ := hkeys q hq
    intro key hkey hkey'
    dsimp only at hkey hkey'
    rw [hfirst] at hkey
    rw [hsecond] at hkey'
    obtain ⟨date, -, hdate⟩ := List.mem_map.mp hkey
    obtain ⟨date', -, hdate'⟩ := List.mem_map.mp hkey'
    exact hne (Prod.mk.inj (hdate.trans hdate'.symm)).1

/-- The entries of a coverage that is returned. -/
theorem mem_buildCoverage {usageRows : List Row}
    (h : buildCoverage calendar usageRows raw windows = .ok coverage) {entry : CoverageDay} :
    entry ∈ coverage ↔
      entry.participantId ∈ (raw ++ usageDates usageRows).map Prod.fst ∧
        ∃ spine, daySpine calendar (windowFor entry.participantId windows)
          (bothDates raw (usageDates usageRows) entry.participantId) = .ok spine ∧
          entry.date ∈ spine ∧
          entry.status = dayStatus (datesOf (usageDates usageRows) entry.participantId)
            (datesOf raw entry.participantId) entry.date := by
  obtain ⟨listing, rfl, hlisting⟩ := buildCoverage_ok h
  rw [List.mem_flatMap]
  constructor
  · rintro ⟨participantId, hmem, hentry⟩
    have hparticipant := List.mem_dedup.mp (mem_sortByKey.mp hmem)
    obtain ⟨spine, hspine, hdays, -⟩ := participantCoverage_ok (hlisting participantId hparticipant)
    rw [hdays] at hentry
    obtain ⟨date, hdate, rfl⟩ := List.mem_map.mp hentry
    exact ⟨hparticipant, spine, hspine, hdate, rfl⟩
  · rintro ⟨hparticipant, spine, hspine, hdate, hstatus⟩
    refine ⟨entry.participantId, mem_sortByKey.mpr (List.mem_dedup.mpr hparticipant), ?_⟩
    obtain ⟨spine', hspine', hdays, -⟩ :=
      participantCoverage_ok (hlisting entry.participantId hparticipant)
    obtain rfl : spine = spine' := Except.ok.inj (hspine.symm.trans hspine')
    rw [hdays]
    exact List.mem_map.mpr ⟨entry.date, hdate, by rw [← hstatus]⟩

/-- A date that a study window does not take away lies on the spine. -/
theorem covered_of_buildCoverage {usageRows : List Row}
    (h : buildCoverage calendar usageRows raw windows = .ok coverage) {date : String}
    (hmem : (participantId, date) ∈ raw ++ usageDates usageRows)
    (hkept : (windowFor participantId windows).all (fun window => window.keepsDate date) = true) :
    ∃ entry ∈ coverage, entry.participantId = participantId ∧ entry.date = date := by
  obtain ⟨listing, -, hlisting⟩ := buildCoverage_ok h
  have hparticipant : participantId ∈ (raw ++ usageDates usageRows).map Prod.fst :=
    List.mem_map.mpr ⟨_, hmem, rfl⟩
  obtain ⟨spine, hspine, -, hcovered⟩ := participantCoverage_ok (hlisting participantId hparticipant)
  have hdate : date ∈ bothDates raw (usageDates usageRows) participantId := by
    rw [bothDates, mem_sortByKey, List.mem_dedup, List.mem_append, mem_datesOf, mem_datesOf]
    exact List.mem_append.mp hmem
  exact ⟨⟨participantId, date, dayStatus (datesOf (usageDates usageRows) participantId)
    (datesOf raw participantId) date⟩, (mem_buildCoverage h).mpr
      ⟨hparticipant, spine, hspine, hcovered date hdate hkept, rfl⟩, rfl, rfl⟩

end Listed

/-! ## Blank participants -/

section Blank

variable {calendar : Calendar} {rawRows usageRows : List Row} {windows : List StudyWindow}
  {participantId date : String} {coverage : List CoverageDay}

theorem witnessKey_ne_blank (participantId : String) : witnessKey participantId ≠ "" := by
  unfold witnessKey
  split
  · decide
  · assumption

theorem mem_indexRawDates :
    (participantId, date) ∈ indexRawDates rawRows ↔ SeenOn rawRows participantId date := by
  simp [indexRawDates, SeenOn]

/-- No session is credited to a blank participant. -/
def NoBlankUsage (usageRows : List Row) : Prop :=
  ∀ row ∈ usageRows, marksUsage row = true → row.participantId ≠ ""

theorem mem_usageDates (hnamed : NoBlankUsage usageRows) :
    (participantId, date) ∈ usageDates usageRows ↔ UsedOn usageRows participantId date := by
  have hkey : ∀ row ∈ usageRows, marksUsage row = true →
      witnessKey row.participantId = row.participantId := fun row hrow hmarks =>
    if_neg (hnamed row hrow hmarks)
  simp only [usageDates, UsedOn, List.mem_map, List.mem_filter, Prod.mk.injEq]
  constructor
  · rintro ⟨row, ⟨hrow, hmarks⟩, hparticipant, hdate⟩
    exact ⟨row, hrow, hmarks, (hkey row hrow hmarks).trans hparticipant, hdate⟩
  · rintro ⟨row, hrow, hmarks, hparticipant, hdate⟩
    exact ⟨row, ⟨hrow, hmarks⟩, (hkey row hrow hmarks).symm.trans hparticipant, hdate⟩

theorem bothDates_eq (hnamed : NoBlankUsage usageRows) (participantId : String) :
    bothDates (indexRawDates rawRows) (usageDates usageRows) participantId =
      dataDates rawRows usageRows participantId := by
  refine eq_sortByKey ?_ (pairwise_sortByKey _ _) fun a _ b _ heq => heq
  refine (perm_sortByKey _ _).trans ((List.perm_ext_iff_of_nodup (List.nodup_dedup _)
    (List.nodup_dedup _)).mpr fun date => ?_)
  simp only [List.mem_dedup, List.mem_append, mem_datesOf, mem_indexRawDates,
    mem_usageDates hnamed, List.mem_map, List.mem_filter, decide_eq_true_eq]
  constructor
  · rintro (⟨row, hrow, hparticipant, hdate⟩ | ⟨row, hrow, hmarks, hparticipant, hdate⟩)
    · exact ⟨row, ⟨.inl hrow, hparticipant⟩, hdate⟩
    · exact ⟨row, ⟨.inr ⟨hrow, hmarks⟩, hparticipant⟩, hdate⟩
  · rintro ⟨row, ⟨hrow | ⟨hrow, hmarks⟩, hparticipant⟩, hdate⟩
    · exact .inl ⟨row, hrow, hparticipant, hdate⟩
    · exact .inr ⟨row, hrow, hmarks, hparticipant, hdate⟩

theorem isObserved_iff (hnamed : NoBlankUsage usageRows) :
    participantId ∈ (indexRawDates rawRows ++ usageDates usageRows).map Prod.fst ↔
      IsObserved rawRows usageRows participantId := by
  simp only [IsObserved, ← mem_indexRawDates, ← mem_usageDates hnamed, ← List.mem_append,
    List.mem_map]
  constructor
  · rintro ⟨⟨_, date⟩, hmem, rfl⟩
    exact ⟨date, hmem⟩
  · rintro ⟨date, hmem⟩
    exact ⟨_, hmem, rfl⟩

/-- Without blank usage the coverage lists what it should. -/
theorem coversDays_of_noBlankUsage (hnamed : NoBlankUsage usageRows)
    (h : buildCoverage calendar usageRows (indexRawDates rawRows) windows = .ok coverage) :
    CoversDays calendar rawRows usageRows windows coverage := by
  have hmem : ∀ entry : CoverageDay, entry ∈ coverage ↔
      IsObserved rawRows usageRows entry.participantId ∧
        OnSpine calendar rawRows usageRows windows entry.participantId entry.date ∧
        entry.status = dayStatus (datesOf (usageDates usageRows) entry.participantId)
          (datesOf (indexRawDates rawRows) entry.participantId) entry.date := by
    intro entry
    rw [mem_buildCoverage h, isObserved_iff hnamed, bothDates_eq hnamed, OnSpine]
    constructor
    · rintro ⟨hobserved, spine, hspine, hdate, hstatus⟩
      exact ⟨hobserved, ⟨spine, hspine, hdate⟩, hstatus⟩
    · rintro ⟨hobserved, ⟨spine, hspine, hdate⟩, hstatus⟩
      exact ⟨hobserved, spine, hspine, hdate, hstatus⟩
  have hstatus : ∀ entry ∈ coverage,
      (UsedOn usageRows entry.participantId entry.date ∧ entry.status = "usage") ∨
      (¬ UsedOn usageRows entry.participantId entry.date ∧
        SeenOn rawRows entry.participantId entry.date ∧ entry.status = "no_activity") ∨
      (¬ UsedOn usageRows entry.participantId entry.date ∧
        ¬ SeenOn rawRows entry.participantId entry.date ∧ entry.status = "no_data") := by
    intro entry hentry
    obtain ⟨-, -, hstatus⟩ := (hmem entry).mp hentry
    have hmemUsed : entry.date ∈ datesOf (usageDates usageRows) entry.participantId ↔ _ :=
      mem_datesOf.trans (mem_usageDates hnamed)
    have hmemSeen : entry.date ∈ datesOf (indexRawDates rawRows) entry.participantId ↔ _ :=
      mem_datesOf.trans mem_indexRawDates
    rw [hstatus, dayStatus]
    -- usage goes before activity, and activity before nothing
    by_cases hused : UsedOn usageRows entry.participantId entry.date
    · exact .inl ⟨hused, if_pos (hmemUsed.mpr hused)⟩
    · rw [if_neg (mt hmemUsed.mp hused)]
      by_cases hseen : SeenOn rawRows entry.participantId entry.date
      · exact .inr (.inl ⟨hused, hseen, if_pos (hmemSeen.mpr hseen)⟩)
      · exact .inr (.inr ⟨hused, hseen, if_neg (mt hmemSeen.mp hseen)⟩)
  constructor
  · exact nodup_buildCoverage h
  · intro participantId date
    constructor
    · rintro ⟨entry, hentry, rfl, rfl⟩
      obtain ⟨hobserved, hspine, -⟩ := (hmem entry).mp hentry
      exact ⟨hobserved, hspine⟩
    · rintro ⟨hobserved, hspine⟩
      exact ⟨⟨participantId, date, dayStatus (datesOf (usageDates usageRows) participantId)
        (datesOf (indexRawDates rawRows) participantId) date⟩,
        (hmem _).mpr ⟨hobserved, hspine, rfl⟩, rfl, rfl⟩
  all_goals
    intro entry hentry
    rcases hstatus entry hentry with ⟨hused, hstatus⟩ | ⟨hused, hseen, hstatus⟩ |
      ⟨hused, hseen, hstatus⟩
    · simp [hused, hstatus]
    · simp [hused, hseen, hstatus]
    · simp [hused, hseen, hstatus]

/-- No study window is one of a blank participant, as `parse_study_windows` sees to. -/
def NamedWindows (windows : List StudyWindow) : Prop :=
  ∀ window ∈ windows, window.participantId ≠ ""

theorem windowFor_blank (hwindows : NamedWindows windows) : windowFor "" windows = none := by
  have hexact : windows.find? (fun window => window.participantId = "") = none :=
    List.find?_eq_none.mpr fun window hwindow => by simpa using hwindows window hwindow
  rw [windowFor, hexact]
  rfl

/-- Blank usage is listed under a blank identifier, which stands for no participant. -/
theorem noBlankUsage_of_coversDays (hwindows : NamedWindows windows)
    (h : buildCoverage calendar usageRows (indexRawDates rawRows) windows = .ok coverage)
    (hcovers : CoversDays calendar rawRows usageRows windows coverage) :
    NoBlankUsage usageRows := by
  intro row hrow hmarks hblank
  have hmem : ("", row.date) ∈ indexRawDates rawRows ++ usageDates usageRows :=
    List.mem_append_right _ (List.mem_map.mpr ⟨row, List.mem_filter.mpr ⟨hrow, hmarks⟩,
      by rw [hblank]⟩)
  have hkept : (windowFor "" windows).all (fun window => window.keepsDate row.date) = true := by
    rw [windowFor_blank hwindows]
    rfl
  obtain ⟨⟨date, hseen | hused⟩, -⟩ :=
    (hcovers.listed "" row.date).mp (covered_of_buildCoverage h hmem hkept)
  · obtain ⟨other, -, hkey, -⟩ := hseen
    exact witnessKey_ne_blank _ hkey
  · obtain ⟨other, -, -, hkey, -⟩ := hused
    exact witnessKey_ne_blank _ hkey

end Blank

/-- A coverage that is returned lists every day of every spine once, with the right status, exactly
when no session is credited to a blank participant. -/
theorem build_coverage_covers_days_iff (calendar : Calendar) (rawRows usageRows : List Row)
    (windows : List StudyWindow) (hwindows : ∀ window ∈ windows, window.participantId ≠ "")
    (coverage : List CoverageDay)
    (h : buildCoverage calendar usageRows (indexRawDates rawRows) windows = .ok coverage) :
    CoversDays calendar rawRows usageRows windows coverage ↔
      ∀ row ∈ usageRows, marksUsage row = true → row.participantId ≠ "" :=
  ⟨noBlankUsage_of_coversDays hwindows h, fun hnamed => coversDays_of_noBlankUsage hnamed h⟩

/-- A calendar that reads the dates of early March 2026. -/
def marchCalendar : Calendar where
  zone := fun _ => none
  parseDate := fun text =>
    ((List.range 11).find? fun i : Nat => dateString (20513 + i) = text).map fun i : Nat => 20513 + i

/-- A credited session of five minutes on the date. -/
def coveredSession (participantId date : String) : Row :=
  { participantId := participantId
    date := date
    interactionType := appUsage
    durationMinutes := some (.finite 5)
    minimumDurationAggregateEligible := true }

theorem build_coverage_covers_days_gap :
    ∃ coverage, buildCoverage marchCalendar [coveredSession "P01" "2026-03-04"]
        (indexRawDates [coveredSession "P01" "2026-03-02"]) [] = .ok coverage ∧
      coverage.length = 3 ∧
      (CoversDays marchCalendar [coveredSession "P01" "2026-03-02"]
        [coveredSession "P01" "2026-03-04"] [] coverage ↔
        ∀ row ∈ [coveredSession "P01" "2026-03-04"], marksUsage row = true →
          row.participantId ≠ "") := by
  refine ⟨[⟨"P01", "2026-03-02", "no_activity"⟩, ⟨"P01", "2026-03-03", "no_data"⟩,
    ⟨"P01", "2026-03-04", "usage"⟩], by decide +kernel, rfl,
    build_coverage_covers_days_iff _ _ _ _ (fun _ h => absurd h List.not_mem_nil) _
      (by decide +kernel)⟩

/-- A blank participant's usage is listed apart from its raw events. -/
theorem blank_usage_listed_apart :
    ∃ coverage, buildCoverage marchCalendar [coveredSession "" "2026-03-02"]
        (indexRawDates [coveredSession "" "2026-03-02"]) [] = .ok coverage ∧
      coverage = [⟨"", "2026-03-02", "usage"⟩, ⟨"unknown", "2026-03-02", "no_activity"⟩] ∧
      ¬ CoversDays marchCalendar [coveredSession "" "2026-03-02"]
        [coveredSession "" "2026-03-02"] [] coverage := by
  refine ⟨_, by decide +kernel, rfl, fun hcovers => ?_⟩
  have hstatus := (hcovers.usage ⟨"unknown", "2026-03-02", "no_activity"⟩ (by simp)).mpr
    ⟨coveredSession "" "2026-03-02", by simp, by decide +kernel, rfl, rfl⟩
  exact absurd hstatus (by decide)

end Chronicle.Pipeline
