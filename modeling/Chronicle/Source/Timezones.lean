import Chronicle.Library.Leader
import Chronicle.Pipeline.Clock
import Chronicle.Source.Decode

/-!
# The clock of the source rows

The dominant timezone is found in one pass, then the rows are filtered to a timezone or converted to
it. The pass keeps the timezone that was the first to reach the largest count.
-/

namespace Chronicle.Source

open Chronicle.Library.Leader Chronicle.Pipeline

/-- The loop body of `estimate_dominant_timezone`; a row without a timezone is passed over. -/
def countTimezone (state : RunningCount String) (row : Row) : RunningCount String :=
  if row.timezone = "" then state else state.count row.timezone

/-- `estimate_dominant_timezone` -/
def estimateDominantTimezone (rows : List Row) : String :=
  (rows.foldl countTimezone (RunningCount.initial "UTC")).leader

/-- `TimezoneSelection` -/
structure TimezoneSelection where
  rows : List Row
  targetTimezone : String
  action : String

/-- `resolve_timezone_strategy` -/
def resolveTimezoneStrategy (rows : List Row)
    (selectedTimezone handling primaryTimezone : String) : Except String TimezoneSelection :=
  match handling with
  | "selected-filter" =>
      if trim selectedTimezone = "" then .error "selected timezone is required for selected-filter"
      else
        let rows := rows.filter fun row => row.timezone = selectedTimezone
        if rows.isEmpty then
          .error ("selected timezone " ++ selectedTimezone ++
            " is not present in the input; filtering would remove all rows")
        else .ok ⟨rows, selectedTimezone, "filtered_to_selected"⟩
  | "selected-convert" =>
      if trim selectedTimezone = "" then .error "selected timezone is required for selected-convert"
      else .ok ⟨rows, selectedTimezone, "converted_to_selected"⟩
  | "primary-filter" =>
      .ok ⟨rows.filter fun row => row.timezone = primaryTimezone, primaryTimezone,
        "filtered_to_primary"⟩
  | "primary-convert" => .ok ⟨rows, primaryTimezone, "converted_to_primary"⟩
  | other => .error ("unsupported timezone handling: " ++ other)

/-- The loop body of `standardize_event_clock`. -/
def standardizeRow (targetTimezone : String) (zone : Zone) (row : Row) : Row :=
  if row.timezone = targetTimezone then row
  else populateTimeColumns { row with timezone := targetTimezone } zone

/-- `standardize_event_clock`; the text of the parser's error is left out. -/
def standardizeEventClock (calendar : Calendar) (rows : List Row) (targetTimezone : String) :
    Except String (List Row) :=
  match calendar.zone targetTimezone with
  | none => .error "tz: "
  | some zone => .ok (rows.map (standardizeRow targetTimezone zone))

/-! ## The dominant timezone -/

/-- The timezones of the rows that have one. -/
def timezoneNames (rows : List Row) : List String := (rows.map Row.timezone).filter (· ≠ "")

theorem estimateDominantTimezone_eq (rows : List Row) :
    estimateDominantTimezone rows = leader "UTC" (timezoneNames rows) := by
  suffices h : ∀ state, rows.foldl countTimezone state =
      (timezoneNames rows).foldl RunningCount.count state by
    rw [estimateDominantTimezone, h, leader]
  induction rows with
  | nil => exact fun _ => rfl
  | cons row rows ih =>
      intro state
      rw [List.foldl_cons, ih, countTimezone]
      split
      · case isTrue hempty => simp [timezoneNames, hempty]
      · case isFalse hname => simp [timezoneNames, hname]

/-- The timezone most rows have, of several the one that the first row among them has, and UTC when
no row has one. -/
def IsDominantTimezone (rows : List Row) (timezone : String) : Prop :=
  (timezoneNames rows = [] → timezone = "UTC") ∧
    (timezoneNames rows ≠ [] → FirstMostFrequent (timezoneNames rows) timezone)

/-- The estimate is the dominant timezone exactly if, of the timezones that most rows have, the one
whose first row comes first is also the one whose last row comes first. -/
theorem estimate_dominant_timezone_iff (rows : List Row) :
    IsDominantTimezone rows (estimateDominantTimezone rows) ↔
      ∀ first other, FirstMostFrequent (timezoneNames rows) first →
        MostFrequent (timezoneNames rows) other → other ≠ first →
          EndsBefore (timezoneNames rows) first other := by
  rw [estimateDominantTimezone_eq]
  by_cases hempty : timezoneNames rows = []
  · refine ⟨fun _ first _ hfirst => ?_, fun _ => ⟨fun _ => ?_, fun hne => absurd hempty hne⟩⟩
    · have hmem := hfirst.1.1
      rw [hempty] at hmem
      exact absurd hmem List.not_mem_nil
    · rw [hempty, leader_nil]
  · have hleader : FirstMostFrequent (timezoneNames rows) (leader "UTC" (timezoneNames rows)) ↔ _ :=
      firstMostFrequent_leader_iff hempty
    rw [← hleader]
    exact ⟨fun h => h.2 hempty, fun h => ⟨fun hnil => absurd hnil hempty, fun _ => h⟩⟩

/-- Two timezones that take turns, two rows each: the one that comes second is the first to reach
two. -/
def alternatingRows : List Row :=
  [{ timezone := "America/New_York" }, { timezone := "America/Chicago" },
    { timezone := "America/Chicago" }, { timezone := "America/New_York" }]

theorem alternating_rows_not_dominant :
    ¬ IsDominantTimezone alternatingRows (estimateDominantTimezone alternatingRows) := by
  rintro ⟨-, hfirst⟩
  have hestimate : estimateDominantTimezone alternatingRows = "America/Chicago" := by
    decide +kernel
  have hnames : timezoneNames alternatingRows =
      ["America/New_York", "America/Chicago", "America/Chicago", "America/New_York"] := by
    decide +kernel
  rw [hestimate, hnames] at hfirst
  obtain ⟨before, after, hsplit, hmem, hother⟩ := (hfirst (by simp)).2 "America/New_York"
    ⟨by simp, fun y => by
      have hcount : List.count "America/New_York" ["America/New_York", "America/Chicago",
        "America/Chicago", "America/New_York"] = 2 := by decide +kernel
      rw [hcount]
      simp only [List.count_cons, List.count_nil]
      grind⟩ (by decide)
  cases before with
  | nil => exact absurd hmem List.not_mem_nil
  | cons name before =>
      rw [List.cons_append] at hsplit
      obtain ⟨rfl, -⟩ := List.cons.inj hsplit
      exact hother List.mem_cons_self

end Chronicle.Source
