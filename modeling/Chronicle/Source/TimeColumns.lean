import Chronicle.Source.Canonical

/-!
# Time columns after the source stages

The date, weekday, hour and quarter of a row are filled in for its timestamp and its timezone. The
stages that set a timezone fill them in again, the one that moves tied rows apart does not: a tie
just after the clock shows another hour keeps the columns of the hour it has left.
-/

namespace Chronicle.Source

open Chronicle.Library Chronicle.Library.Stages Chronicle.Library.StableSort Chronicle.Pipeline

/-- The columns that `populate_time_columns` fills in. -/
structure TimeColumns where
  date : String
  day : Nat
  weekdayMf : Nat
  weekdayMth : Nat
  weekdaySuTh : Nat
  hour : Nat
  quarter : Nat
deriving DecidableEq, Repr

/-- The time columns of a row. -/
def timeColumns (row : Row) : TimeColumns :=
  ⟨row.date, row.day, row.weekdayMf, row.weekdayMth, row.weekdaySuTh, row.hour, row.quarter⟩

/-- The time columns of an instant. -/
def columnsAt (zone : Zone) (instant : Int) : TimeColumns :=
  timeColumns (populateTimeColumns { eventTimestampNs := instant } zone)

/-- The columns of the row are those of its timestamp in the zone. -/
def ShowsClock (zone : Zone) (row : Row) : Prop :=
  timeColumns row = columnsAt zone row.eventTimestampNs

/-- The columns of the row are those of its current timestamp in its current timezone. -/
def ColumnsCurrent (calendar : Calendar) (row : Row) : Prop :=
  ∃ zone, calendar.zone row.timezone = some zone ∧ ShowsClock zone row

theorem showsClock_populateTimeColumns (row : Row) (zone : Zone) :
    ShowsClock zone (populateTimeColumns row zone) := by
  simp only [ShowsClock, timeColumns, columnsAt, populateTimeColumns]
  rfl

theorem showsClock_withTimestamp {zone : Zone} {row : Row} {t : Int} (h : ShowsClock zone row) :
    ShowsClock zone (withTimestamp row t) ↔
      columnsAt zone t = columnsAt zone row.eventTimestampNs := by
  unfold ShowsClock at h ⊢
  have hsame : timeColumns (withTimestamp row t) = timeColumns row := by
    simp only [timeColumns, withTimestamp]
  rw [hsame, h]
  exact eq_comm

/-! ## Up to the coalescing of duplicates -/

section Coalesced

variable {clock : Clock} {calendar : Calendar} {fallback : Zone} {rows out : List Row}
  {rawRows : List RawRow}

/-- The columns show the zone of the row's timezone, or the fallback if there is none. -/
def ShowsOwnClock (calendar : Calendar) (fallback : Zone) (row : Row) : Prop :=
  ShowsClock ((calendar.zone row.timezone).getD fallback) row

theorem showsOwnClock_canonicalizeSourceRows {fallbackTimezone : String}
    {interactionRemap : List (String × String)}
    (h : canonicalizeSourceRows clock rawRows fallbackTimezone interactionRemap = .ok rows) :
    ∃ fallback, ∀ row ∈ rows, ShowsOwnClock clock.toCalendar fallback row := by
  unfold canonicalizeSourceRows at h
  split at h
  · cases h
  · next fallback _ =>
      refine ⟨fallback, fun row hrow => ?_⟩
      obtain ⟨entry, -, hentry⟩ := mem_of_mapM_ok h hrow
      unfold canonicalizeSourceRow at hentry
      split at hentry
      · cases hentry
      · obtain rfl := Except.ok.inj hentry
        exact showsClock_populateTimeColumns _ _

theorem mem_of_mem_inSourceOrder {latest : String → Option Int} {row : Row}
    (h : row ∈ inSourceOrder latest rows) : row ∈ rows := by
  induction rows generalizing latest with
  | nil => exact h
  | cons first rows ih =>
      rw [inSourceOrder] at h
      split at h
      · exact List.mem_cons_of_mem first (ih h)
      · rcases List.mem_cons.mp h with rfl | h
        · exact List.mem_cons_self
        · exact List.mem_cons_of_mem first (ih h)

theorem mem_of_mem_orderSourceRecordsWithPolicy {drop : Bool} {row : Row}
    (h : row ∈ orderSourceRecordsWithPolicy rows drop) : row ∈ rows := by
  unfold orderSourceRecordsWithPolicy at h
  split at h
  · exact mem_of_mem_inSourceOrder (mem_sortByKey.mp h)
  · exact mem_sortByKey.mp h

theorem mem_of_mem_selection {selected handling primary : String} {selection : TimezoneSelection}
    (h : resolveTimezoneStrategy rows selected handling primary = .ok selection) {row : Row}
    (hrow : row ∈ selection.rows) : row ∈ rows := by
  unfold resolveTimezoneStrategy at h
  split at h
  · split at h
    · cases h
    · dsimp only at h
      split at h
      · cases h
      · obtain rfl := Except.ok.inj h
        exact List.mem_of_mem_filter hrow
  · split at h
    · cases h
    · obtain rfl := Except.ok.inj h
      exact hrow
  · obtain rfl := Except.ok.inj h
    exact List.mem_of_mem_filter hrow
  · obtain rfl := Except.ok.inj h
    exact hrow
  · cases h

/-- On one clock every row has the target timezone and shows its zone. -/
def OnClock (targetTimezone : String) (zone : Zone) (row : Row) : Prop :=
  row.timezone = targetTimezone ∧ ShowsClock zone row

theorem onClock_standardizeEventClock {targetTimezone : String}
    (hrows : ∀ row ∈ rows, ShowsOwnClock calendar fallback row)
    (h : standardizeEventClock calendar rows targetTimezone = .ok out) :
    ∃ zone, calendar.zone targetTimezone = some zone ∧
      ∀ row ∈ out, OnClock targetTimezone zone row := by
  unfold standardizeEventClock at h
  split at h
  · cases h
  · next zone hzone =>
      obtain rfl := Except.ok.inj h
      refine ⟨zone, hzone, fun row hrow => ?_⟩
      obtain ⟨original, horiginal, rfl⟩ := List.mem_map.mp hrow
      unfold standardizeRow
      split
      · case isTrue hsame =>
          have hown := hrows original horiginal
          rw [ShowsOwnClock, hsame, hzone, Option.getD_some] at hown
          exact ⟨hsame, hown⟩
      · exact ⟨rfl, showsClock_populateTimeColumns _ _⟩

/-- What merging raw data rows leaves alone, coalescing leaves alone. -/
theorem every_dedupeExactRows {P : Row → Prop}
    (hP : ∀ additional row, P row → P (mergeSources additional row)) (hrows : ∀ row ∈ rows, P row) :
    ∀ row ∈ dedupeExactRows rows, P row := by
  unfold dedupeExactRows
  induction rows using List.reverseRecOn with
  | nil => exact fun row hrow => absurd hrow List.not_mem_nil
  | append_singleton rows last ih =>
      obtain ⟨hrows, hlast⟩ := List.forall_mem_append.mp hrows
      have hkept := ih hrows
      rw [List.foldl_append, List.foldl_cons, List.foldl_nil, Deduplication.push]
      intro row hrow
      split at hrow
      · rcases Loop.mem_modify hrow with hrow | ⟨old, hold, rfl⟩
        · exact hkept row hrow
        · exact hP _ old (hkept old (List.mem_of_getElem? hold))
      · rcases List.mem_append.mp hrow with hrow | hrow
        · exact hkept row hrow
        · exact hlast row hrow

/-- Before tied rows are moved apart, all rows are on one clock. -/
theorem onClock_coalescedRows {settings : SourceSettings}
    (h : coalescedRows clock settings rawRows = .ok rows) :
    ∃ targetTimezone zone, clock.zone targetTimezone = some zone ∧
      ∀ row ∈ rows, OnClock targetTimezone zone row := by
  unfold coalescedRows at h
  obtain ⟨canonical, hcanonical, h⟩ := bind_eq_ok.mp h
  obtain ⟨selection, hselection, h⟩ := bind_eq_ok.mp h
  obtain ⟨standardized, hstandardized, h⟩ := bind_eq_ok.mp h
  obtain rfl := Except.ok.inj h
  obtain ⟨fallback, hown⟩ := showsOwnClock_canonicalizeSourceRows hcanonical
  obtain ⟨zone, hzone, hclock⟩ := onClock_standardizeEventClock
    (fun row hrow => hown row (mem_of_mem_orderSourceRecordsWithPolicy
      (mem_of_mem_selection hselection hrow))) hstandardized
  refine ⟨selection.targetTimezone, zone, hzone, ?_⟩
  unfold coalesceDuplicateEventKeys
  split
  · exact every_dedupeExactRows (fun _ _ hrow => hrow) hclock
  · exact hclock

end Coalesced

/-! ## Moving apart -/

section

variable {calendar : Calendar} {same other : List String} {rows out : List Row}

/-- For as many microseconds before a tie as it has rows, the clock shows what it shows at the
tie. -/
def TiesKeepColumns (calendar : Calendar) (rows : List Row) : Prop :=
  ∀ row ∈ rows, 1 < tieSize rows row → ∀ zone, calendar.zone row.timezone = some zone →
    ∀ back : Nat, 1 ≤ back → back ≤ tieSize rows row →
      columnsAt zone (row.eventTimestampNs - back * 1000) = columnsAt zone row.eventTimestampNs

theorem columnsCurrent_unalign_iff {targetTimezone : String} {zone : Zone}
    (hzone : calendar.zone targetTimezone = some zone)
    (hrows : ∀ row ∈ rows, OnClock targetTimezone zone row)
    (h : unalignDuplicateTimestamps rows same other = .ok out) :
    (∀ row ∈ out, ColumnsCurrent calendar row) ↔ TiesKeepColumns calendar rows := by
  -- a moved row keeps the columns of its old time
  have hmoved : ∀ row ∈ rows, ∀ t, ColumnsCurrent calendar (withTimestamp row t) ↔
      columnsAt zone t = columnsAt zone row.eventTimestampNs := by
    intro row hrow t
    obtain ⟨htimezone, hshows⟩ := hrows row hrow
    have hown : calendar.zone (withTimestamp row t).timezone = some zone := htimezone ▸ hzone
    rw [← showsClock_withTimestamp hshows]
    constructor
    · rintro ⟨zone', hzone', hcurrent⟩
      rwa [Option.some.inj (hzone'.symm.trans hown)] at hcurrent
    · exact fun hcurrent => ⟨zone, hown, hcurrent⟩
  constructor
  · intro hcurrent row hrow htied zone' hzone' back hpositive hback
    have hplace : tieSize rows row - back < tieSize rows row := by omega
    obtain ⟨there, hthere, hkey, hout⟩ := exists_at_place h hrow htied hplace
    have hsame : there.eventTimestampNs = row.eventTimestampNs := congrArg Prod.snd hkey
    have hoffset : duplicateOffset (tieSize rows row) (tieSize rows row - back) = back * 1000 := by
      rw [duplicateOffset, Nat.sub_sub_self hback]
    have hshift := (hmoved there hthere _).mp (hcurrent _ hout)
    rw [hsame, hoffset] at hshift
    rw [(hrows row hrow).1, hzone] at hzone'
    exact Option.some.inj hzone' ▸ hshift
  · intro hkeep row' hrow'
    obtain ⟨key, -, hblock⟩ := List.mem_flatMap.mp ((unalign_eq_ok h).1.mem_iff.mp hrow')
    by_cases hcount : 1 < (duplicateBlock rows key).length
    · obtain ⟨place, entry, hentry, rfl⟩ := (mem_movedApart hcount).mp hblock
      obtain ⟨hmem, hkey⟩ := List.mem_filter.mp
        (mem_of_mem_duplicateOrder (List.mem_of_getElem? hentry))
      have hplace := (List.getElem?_eq_some_iff.mp hentry).1
      rw [length_duplicateOrder] at hplace
      have hsize : tieSize rows entry.1 = (duplicateBlock rows key).length := by
        rw [tieSize, of_decide_eq_true hkey]
      refine (hmoved entry.1 hmem _).mpr ?_
      rw [duplicateOffset]
      exact hkeep entry.1 hmem (by omega) zone ((hrows entry.1 hmem).1 ▸ hzone) _ (by omega)
        (by omega)
    · -- a row alone at its time is not moved
      rw [movedApart, if_neg hcount] at hblock
      have hmem := List.mem_of_mem_filter hblock
      exact (hmoved row' hmem row'.eventTimestampNs).mpr rfl

end

/-- After the source stages the time columns are current exactly if ties are left alone, or every
tie stands far enough behind the last change of what the clock shows. -/
theorem time_columns_current_iff (clock : Clock) (settings : SourceSettings)
    (rawRows : List RawRow) (rows out : List Row)
    (hrows : coalescedRows clock settings rawRows = .ok rows)
    (hout : sourceRows clock settings rawRows = .ok out) :
    (∀ row ∈ out, ColumnsCurrent clock.toCalendar row) ↔
      settings.correctDuplicateEventTimestamps = false ∨
        TiesKeepColumns clock.toCalendar rows := by
  obtain ⟨targetTimezone, zone, hzone, hclock⟩ := onClock_coalescedRows hrows
  unfold sourceRows at hout
  rw [hrows] at hout
  change disambiguateDuplicateTimestamps _ _ _ _ = _ at hout
  unfold disambiguateDuplicateTimestamps at hout
  split at hout
  · case isTrue henabled =>
      rw [columnsCurrent_unalign_iff hzone hclock hout, henabled]
      simp
  · case isFalse hdisabled =>
      obtain rfl := Except.ok.inj hout
      refine iff_of_true (fun row hrow => ?_) (.inl (Bool.not_eq_true _ ▸ hdisabled))
      exact ⟨zone, (hclock row hrow).1 ▸ hzone, (hclock row hrow).2⟩

/-! ## A tie at midnight -/

/-- A clock that knows UTC and two texts, a midnight and a time of the day after it. -/
def twoTimesClock : Clock where
  zone name := if name = "UTC" then some Zone.utc else none
  parseDate _ := none
  parseTimestamp text :=
    if text = "2024-01-02 00:00:00" then some 1704153600000000000
    else if text = "2024-01-02 12:30:00" then some 1704198600000000000
    else none

/-- A pause and a resume at one time. -/
def handoverRecords (eventTimestamp : String) : List RawRow :=
  [⟨1, eventTimestamp, "UTC", "com.first", "Activity Paused", "", "", "p", ""⟩,
    ⟨2, eventTimestamp, "UTC", "com.second", "Activity Resumed", "", "", "p", ""⟩]

/-- The settings under which tied rows are moved apart. -/
def movingSettings : SourceSettings := { correctDuplicateEventTimestamps := true }

theorem midnight_tie_keeps_date :
    ∃ out, sourceRows twoTimesClock movingSettings (handoverRecords "2024-01-02 00:00:00") =
        .ok out ∧ ¬ ∀ row ∈ out, ColumnsCurrent twoTimesClock.toCalendar row := by
  have hrun : ((sourceRows twoTimesClock movingSettings
      (handoverRecords "2024-01-02 00:00:00")).toOption.bind List.head?).map
        (fun row => (row.timezone, row.date, row.eventTimestampNs)) =
      some ("UTC", "2024-01-02", 1704153599999998000) := by decide +kernel
  obtain ⟨row, hrow, hshown⟩ := Option.map_eq_some_iff.mp hrun
  obtain ⟨out, hout, hhead⟩ := Option.bind_eq_some_iff.mp hrow
  obtain ⟨htimezone, hdate, htime⟩ : row.timezone = "UTC" ∧ row.date = "2024-01-02" ∧
      row.eventTimestampNs = 1704153599999998000 := by simpa using hshown
  refine ⟨out, toOption_eq_some.mp hout, fun hcurrent => ?_⟩
  obtain ⟨zone, hzone, hshows⟩ := hcurrent row (List.mem_of_mem_head? hhead)
  rw [htimezone] at hzone
  obtain rfl : Zone.utc = zone := Option.some.inj hzone
  have hearlier : (columnsAt Zone.utc 1704153599999998000).date = "2024-01-01" := by decide +kernel
  have hsame : row.date = (columnsAt Zone.utc row.eventTimestampNs).date :=
    congrArg TimeColumns.date hshows
  rw [hdate, htime, hearlier] at hsame
  exact absurd hsame (by decide)

theorem time_columns_current_iff_midday :
    (∀ row ∈ ((sourceRows twoTimesClock movingSettings
        (handoverRecords "2024-01-02 12:30:00")).toOption.getD []),
      ColumnsCurrent twoTimesClock.toCalendar row) ↔
    movingSettings.correctDuplicateEventTimestamps = false ∨
      TiesKeepColumns twoTimesClock.toCalendar ((coalescedRows twoTimesClock movingSettings
        (handoverRecords "2024-01-02 12:30:00")).toOption.getD []) :=
  time_columns_current_iff twoTimesClock movingSettings (handoverRecords "2024-01-02 12:30:00")
    _ _ rfl rfl

end Chronicle.Source
