import Chronicle.Pipeline.Clock
import Chronicle.Pipeline.Reconstruction

/-!
# The Culverhouse interval policy

The policy folds neighbouring rows of one app into one, bounds implausible intervals, and flags the
days that are partial or change their clock. A hash map is a function from its keys, and `i64`
arithmetic wraps.
-/

namespace Chronicle.Pipeline

open Chronicle.Library Chronicle.Library.Machine

/-- `CULVERHOUSE_SAME_APP_COLLAPSE_NS` -/
def culverhouseSameAppCollapseNs : Int := 1000000000

/-- `CULVERHOUSE_BAD_APP_CAP_NS` -/
def culverhouseBadAppCapNs : Int := 10 * 60 * 1000000000

/-- `CULVERHOUSE_LONG_3H_NS` -/
def culverhouseLong3hNs : Int := 3 * 3600 * 1000000000

/-- `CULVERHOUSE_LONG_6H_NS` -/
def culverhouseLong6hNs : Int := 6 * 3600 * 1000000000

/-- `CULVERHOUSE_PARTIAL_DAY_GAP_HOURS` -/
def culverhousePartialDayGapHours : Binary64 := .finite 12

/-- `CULVERHOUSE_COLLAPSED_FLAG` -/
def culverhouseCollapsedFlag : String := "CULVERHOUSE COLLAPSED"

/-- `CULVERHOUSE_BAD_APP_CAP_FLAG` -/
def culverhouseBadAppCapFlag : String := "CULVERHOUSE BAD-APP CAP"

/-- `CULVERHOUSE_LONG_3H_FLAG` -/
def culverhouseLong3hFlag : String := "CULVERHOUSE LONG-3H"

/-- `CULVERHOUSE_LONG_6H_FLAG` -/
def culverhouseLong6hFlag : String := "CULVERHOUSE LONG-6H"

/-- `CULVERHOUSE_PARTIAL_DAY_FLAG` -/
def culverhousePartialDayFlag : String := "CULVERHOUSE PARTIAL DAY"

/-- `CULVERHOUSE_DST_DAY_FLAG` -/
def culverhouseDstDayFlag : String := "CULVERHOUSE DST DAY"

/-- `CULVERHOUSE_TRUNCATED_FLAG_PREFIX` -/
def culverhouseTruncatedFlagPrefix : String := "CULVERHOUSE TRUNCATED "

/-- The flag list with one more flag, in the form `['A', 'B']`. -/
def appendFlag (current flag : String) : String :=
  let body := String.ofList current.toList.dropLast
  if current.toList.getLast? = some ']' ∧ body ≠ "[" then body ++ ", '" ++ flag ++ "']"
  else "['" ++ flag ++ "']"

/-- `push_row_flag` -/
def pushRowFlag (row : Row) (flag : String) : Row :=
  { row with anyAppUsageFlags := appendFlag row.anyAppUsageFlags flag }

/-- `push_truncation_flag`; `formatNumber` is `js_number_to_string`. -/
def pushTruncationFlag (formatNumber : Binary64 → String) (row : Row) (truncatedNs : Int) : Row :=
  pushRowFlag row
    (culverhouseTruncatedFlagPrefix ++ formatNumber (durationSecondsOf truncatedNs) ++ " S")

/-- `culverhouse_span_ns` -/
def culverhouseSpanNs (row : Row) : Option (Int × Int) :=
  match row.startTimestampNs, row.stopTimestampNs with
  | some start, some stop => if start ≤ stop then some (start, stop) else none
  | _, _ => none

/-- `culverhouse_truncate_row`: the durations are rewritten only where the row had one. -/
def culverhouseTruncateRow (row : Row) (start spanNs : Int) : Row :=
  let ended := { row with stopTimestampNs := some (wrap64 (start + spanNs)) }
  if row.durationSeconds.isSome || row.durationMinutes.isSome then ended.publishDuration spanNs
  else ended

/-- `culverhouse_merge_row`, which has the body of `culverhouse_truncate_row`. -/
def culverhouseMergeRow (row : Row) (start spanNs : Int) : Row :=
  culverhouseTruncateRow row start spanNs

/-- `is_culverhouse_usage_row` -/
def isCulverhouseUsageRow (row : Row) : Bool :=
  row.interactionType = appUsage || row.interactionType = filteredAppUsage

/-! ## Collapse -/

/-- `SequenceKey` -/
structure SequenceKey where
  participantId : String
  interactionType : String
  appPackageName : String
  usageLayer : Option String
deriving DecidableEq, Repr

/-- `RuleState`: what the duration rules decided about a row. -/
structure RuleState where
  minimumDurationQualified : Option Bool
  minimumDurationAggregateEligible : Bool
  minimumDurationBlankApplied : Bool
  concurrentSubintervalFloorBlankApplied : Bool
  microUseClassification : Option MicroUseClassification
  rawDurationIsZero : Bool
  maximumDurationAggregateEligible : Bool
deriving DecidableEq, Repr

/-- The sequence the row belongs to. -/
def Row.sequenceKey (row : Row) : SequenceKey :=
  ⟨row.participantId, row.interactionType, row.appPackageName, row.usageLayer⟩

/-- The duration-rule state of the row. -/
def Row.ruleState (row : Row) : RuleState :=
  { minimumDurationQualified := row.minimumDurationQualified
    minimumDurationAggregateEligible := row.minimumDurationAggregateEligible
    minimumDurationBlankApplied := row.minimumDurationBlankApplied
    concurrentSubintervalFloorBlankApplied := row.concurrentSubintervalFloorBlankApplied
    microUseClassification := row.microUseClassification
    rawDurationIsZero := row.rawEpisodeDurationNs = some 0
    maximumDurationAggregateEligible := row.maximumDurationAggregateEligible }

/-- The rows kept so far, and where the last row of each sequence stands with its state. -/
structure Collapse where
  out : List Row
  lastUsage : SequenceKey → Option (Nat × RuleState)

/-- The kept row that this row merges into: its position, its start and the merged span. -/
def mergeTarget (c : Collapse) (row : Row) : Option (Nat × Int × Int) := do
  let previous ← c.lastUsage row.sequenceKey
  let span ← culverhouseSpanNs row
  let target ← c.out[previous.1]?
  let targetSpan ← culverhouseSpanNs target
  if previous.2 = row.ruleState ∧
      wrap64 (span.1 - targetSpan.2) ≤ culverhouseSameAppCollapseNs then
    some (previous.1, targetSpan.1, wrap64 (max span.2 targetSpan.2 - targetSpan.1))
  else none

/-- One row of the collapse. -/
def collapseStep (c : Collapse) (row : Row) : Collapse :=
  if !isCulverhouseUsageRow row then { c with out := c.out ++ [row] }
  else
    match mergeTarget c row with
    | some (position, start, span) =>
        { c with
          out := c.out.modify position fun target =>
            pushRowFlag (culverhouseMergeRow target start span) culverhouseCollapsedFlag }
    | none =>
        { out := c.out ++ [row]
          lastUsage :=
            if (culverhouseSpanNs row).isSome then
              Function.update c.lastUsage row.sequenceKey (some (c.out.length, row.ruleState))
            else c.lastUsage }

/-- `culverhouse_collapse_same_app` -/
def culverhouseCollapseSameApp (rows : List Row) : List Row :=
  (rows.foldl collapseStep ⟨[], fun _ => none⟩).out

/-! ## Bounds -/

/-- The bound of an interval: the cap of an excluded package whose duration is not blanked, and the
six-hour band, whose truncation is strict where its flag is not. -/
def implausibleBound (row : Row) (span : Int) : Int :=
  let capped :=
    if row.interactionType = filteredAppUsage && !row.minimumDurationBlankApplied &&
        !row.concurrentSubintervalFloorBlankApplied then min span culverhouseBadAppCapNs
    else span
  if culverhouseLong6hNs < span then min capped culverhouseBadAppCapNs else capped

/-- The row with the flags of its span. -/
def flagImplausibleSpan (row : Row) (span : Int) : Row :=
  let banded :=
    if culverhouseLong6hNs ≤ span then pushRowFlag row culverhouseLong6hFlag
    else if culverhouseLong3hNs ≤ span then pushRowFlag row culverhouseLong3hFlag
    else row
  if row.interactionType = filteredAppUsage ∧ culverhouseBadAppCapNs < span then
    pushRowFlag banded culverhouseBadAppCapFlag
  else banded

/-- The row with its flags, ended at its bound. -/
def truncateImplausibleRow (formatNumber : Binary64 → String) (row : Row) (start span bound : Int) :
    Row :=
  let flagged := flagImplausibleSpan row span
  if bound < span then
    pushTruncationFlag formatNumber (culverhouseTruncateRow flagged start bound)
      (wrap64 (span - bound))
  else flagged

/-- One row of `culverhouse_bound_implausible_intervals`. -/
def boundImplausibleRow (formatNumber : Binary64 → String) (row : Row) : Row :=
  match culverhouseSpanNs row with
  | none => row
  | some (start, stop) =>
      let span := wrap64 (stop - start)
      let bound := implausibleBound row span
      let truncated := truncateImplausibleRow formatNumber row start span bound
      if row.interactionType = filteredAppUsage && !row.minimumDurationBlankApplied &&
          !row.concurrentSubintervalFloorBlankApplied then truncated.publishDuration bound
      else truncated

/-- `culverhouse_bound_implausible_intervals` -/
def culverhouseBoundImplausibleIntervals (formatNumber : Binary64 → String) (rows : List Row) :
    List Row :=
  rows.map (boundImplausibleRow formatNumber)

/-! ## Days -/

/-- `culverhouse_is_dst_day`, over the remaining hours and the offset seen so far. -/
def showsOffsetChange (zone : Zone) (day : Int) : List Int → Option Int → Bool
  | [], _ => false
  | hour :: hours, offset =>
      let reading := day * nsPerDay + hour * nsPerHour
      match zone.fromLocal reading with
      | .single instant =>
          match offset with
          | some previous =>
              previous ≠ reading - instant || showsOffsetChange zone day hours offset
          | none => showsOffsetChange zone day hours (some (reading - instant))
      | _ => true

/-- `culverhouse_is_dst_day` -/
def culverhouseIsDstDay (zone : Zone) (day : Int) : Bool := showsOffsetChange zone day [0, 12, 23] none

/-- A participant and a date. -/
abbrev ParticipantDay := String × String

/-- What the first pass of `culverhouse_flag_days` collects. -/
structure ObservedDays where
  firstLast : String → Option (String × String)
  partialDays : List ParticipantDay
  previous : String → Option ParticipantDay

/-- One row of the first pass. -/
def observeDay (days : ObservedDays) (row : Row) : ObservedDays :=
  if row.date = "" then days
  else
    let bounds := (days.firstLast row.participantId).getD (row.date, row.date)
    let key := (row.participantId, row.date)
    { firstLast := Function.update days.firstLast row.participantId
        (some (min bounds.1 row.date, max bounds.2 row.date))
      partialDays :=
        if Binary64.lt culverhousePartialDayGapHours row.dataTimeGapHours then
          days.partialDays ++ key :: (days.previous row.participantId).toList
        else days.partialDays
      previous := Function.update days.previous row.participantId (some key) }

/-- The row stands on the first or last day of its participant, or beside a long gap. -/
def isPartialDay (days : ObservedDays) (row : Row) : Bool :=
  (row.participantId, row.date) ∈ days.partialDays ||
    (days.firstLast row.participantId).any fun bounds => row.date = bounds.1 || row.date = bounds.2

/-- The row's date contains a change of the UTC offset. -/
def isDstDay (calendar : Calendar) (row : Row) : Bool :=
  (calendar.parseDate row.date).any fun day =>
    culverhouseIsDstDay ((calendar.zone row.timezone).getD .utc) day

/-- One row of the second pass. -/
def flagDay (calendar : Calendar) (days : ObservedDays) (row : Row) : Row :=
  if row.date = "" then row
  else
    let flagged := if isPartialDay days row then pushRowFlag row culverhousePartialDayFlag else row
    if isDstDay calendar row then pushRowFlag flagged culverhouseDstDayFlag else flagged

/-- `culverhouse_flag_days` -/
def culverhouseFlagDays (calendar : Calendar) (rows : List Row) : List Row :=
  rows.map (flagDay calendar (rows.foldl observeDay ⟨fun _ => none, [], fun _ => none⟩))

/-- The interval of an excluded row comes back from its raw episode, less the tail that a maximum
has trimmed. -/
def restoreFilteredInterval (row : Row) : Row :=
  if row.interactionType = filteredAppUsage ∧ row.startTimestampNs = none ∧
      row.stopTimestampNs = none then
    match row.rawEpisodeStartTimestampNs, row.rawEpisodeStopTimestampNs with
    | some start, some stop =>
        { row with
          startTimestampNs := some start
          stopTimestampNs := some (wrap64 (stop - row.maximumDurationTrimmedNs.getD 0)) }
    | _, _ => row
  else row

/-- `culverhouse_trim_and_log` -/
def culverhouseTrimAndLog (calendar : Calendar) (formatNumber : Binary64 → String)
    (rows : List Row) : List Row :=
  culverhouseFlagDays calendar
    (culverhouseBoundImplausibleIntervals formatNumber
      (culverhouseCollapseSameApp (rows.map restoreFilteredInterval)))

/-- `interval_quality_step` -/
def intervalQualityStep (calendar : Calendar) (formatNumber : Binary64 → String) (rows : List Row)
    (policy : IntervalQualityPolicy) : List Row :=
  match policy with
  | .none => suppressExcludedTiming rows
  | .culverhouseTrimAndLog => culverhouseTrimAndLog calendar formatNumber rows

/-- A usage row of one app. -/
def appUsageRow (start stop : Int) : Row where
  toEpisodeTiming := { startTimestampNs := some start, stopTimestampNs := some stop }
  participantId := "P1"
  interactionType := appUsage
  appPackageName := "com.example.chat"

end Chronicle.Pipeline
