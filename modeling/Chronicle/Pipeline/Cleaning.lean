import Chronicle.Pipeline.Culverhouse

/-!
# Cleaning and session numbering

Rows of selected types and rows of no length are removed, and the bounded usage rows of each
partition are numbered by sessions. Gaps are compared doubled, so that a median of two middle gaps
stays an integer.
-/

namespace Chronicle.Pipeline

open Chronicle.Library Chronicle.Library.Machine Chronicle.Library.StableSort

/-- `InteractionTypeRemovalMode` -/
inductive InteractionTypeRemovalMode where
  | gapPreserving
  | unconditional
deriving DecidableEq, Repr

/-- The least threshold, as `f64::min` folds it from infinity. -/
def leastThreshold (thresholds : List Binary64) : Binary64 :=
  thresholds.foldl Binary64.min (.infinity false)

/-- `remove_selected_interaction_types` -/
def removeSelectedInteractionTypes (rows : List Row) (interactionTypesToRemove : List String)
    (longDataTimeGapThresholds : List Binary64) (mode : InteractionTypeRemovalMode) : List Row :=
  rows.filter fun row =>
    row.interactionType ∉ interactionTypesToRemove ||
      mode = .gapPreserving &&
        Binary64.ge row.dataTimeGapHours (leastThreshold longDataTimeGapThresholds)

/-- `is_zero_duration_cleanup_candidate` -/
def isZeroDurationCleanupCandidate (row : Row) : Bool :=
  row.rawEpisodeDurationNs = some 0 ||
    row.rawEpisodeDurationNs = none && row.interactionType = appUsage &&
      row.durationSeconds.any fun seconds => seconds.eqIeee (.finite 0)

/-- `remove_zero_duration_rows` -/
def removeZeroDurationRows (rows : List Row) (enabled : Bool) : List Row :=
  if enabled then rows.filter fun row => !isZeroDurationCleanupCandidate row else rows

/-! ## Session numbering -/

/-- `SessionGroupingPolicy` -/
inductive SessionGroupingPolicy where
  | none
  | pengZhu2020ParticipantMedian
  | churchFiveSeconds
  | smartphoneWellbeingStrictLtFiveSeconds
  | grosseDetersTenSeconds
  | rossFifteenSeconds
  | vanBerkelFortyFiveSeconds
  | zerrerSixtySeconds
deriving DecidableEq, Repr

/-- `SessionGapThreshold` -/
inductive SessionGapThreshold where
  | fixedNs (ns : Int)
  | partitionMedian
deriving DecidableEq, Repr

/-- `SessionGroupingPolicy::gap_threshold` -/
def SessionGroupingPolicy.gapThreshold : SessionGroupingPolicy → Option SessionGapThreshold
  | none => Option.none
  | pengZhu2020ParticipantMedian => some .partitionMedian
  | churchFiveSeconds | smartphoneWellbeingStrictLtFiveSeconds => some (.fixedNs (5 * 1000000000))
  | grosseDetersTenSeconds => some (.fixedNs (10 * 1000000000))
  | rossFifteenSeconds => some (.fixedNs (15 * 1000000000))
  | vanBerkelFortyFiveSeconds => some (.fixedNs (45 * 1000000000))
  | zerrerSixtySeconds => some (.fixedNs (60 * 1000000000))

/-- `SessionGroupingPolicy::boundary_gap_starts_new_session` -/
def SessionGroupingPolicy.boundaryGapStartsNewSession : SessionGroupingPolicy → Bool
  | smartphoneWellbeingStrictLtFiveSeconds | rossFifteenSeconds | pengZhu2020ParticipantMedian =>
      true
  | _ => false

/-- `SessionGroupingPolicy::package_change_ends_session` -/
def SessionGroupingPolicy.packageChangeEndsSession : SessionGroupingPolicy → Bool
  | rossFifteenSeconds => true
  | _ => false

/-- `SessionGapBasis` -/
inductive SessionGapBasis where
  | previousEpisodeStop
  | sessionRunningMaximumStop
deriving DecidableEq, Repr

/-- `SessionBoundaryScope` -/
inductive SessionBoundaryScope where
  | participant
  | participantAndStudy
  | participantStudyAndPerson
deriving DecidableEq, Repr

/-- `SessionGroupingRules` -/
structure SessionGroupingRules where
  policy : SessionGroupingPolicy := .none
  gapBasis : SessionGapBasis := .previousEpisodeStop
  scope : SessionBoundaryScope := .participant
  emitLineage : Bool := false
deriving DecidableEq, Repr

/-- `SessionPartitionKey` -/
structure SessionPartitionKey where
  studyId : Option String
  participantId : String
  username : Option String
deriving DecidableEq, Repr

/-- `session_partition_key` -/
def sessionPartitionKey (row : Row) (scope : SessionBoundaryScope) : SessionPartitionKey :=
  { studyId := if scope = .participant then none else some row.studyId
    participantId := row.participantId
    username := if scope = .participantStudyAndPerson then some row.username else none }

/-- The row is a usage row with both bounds. -/
def isBoundedUsage (row : Row) : Bool :=
  isCulverhouseUsageRow row && row.startTimestampNs.isSome && row.stopTimestampNs.isSome

/-- The start that the walk reads. -/
def Row.sessionStart (row : Row) : Int := row.startTimestampNs.getD i64Min

/-- The stop that the walk reads. -/
def Row.sessionStop (row : Row) : Int := row.stopTimestampNs.getD i64Min

/-- The positions of one partition's bounded usage rows, in order of start and then of position. -/
def partitionOrder (rows : List Row) (scope : SessionBoundaryScope) (key : SessionPartitionKey) :
    List Nat :=
  sortByKey (fun index => toLex ((rowAt rows index).sessionStart, index))
    ((List.range rows.length).filter fun index =>
      isBoundedUsage (rowAt rows index) && sessionPartitionKey (rowAt rows index) scope = key)

/-- `doubled_median_gap_ns` -/
def doubledMedianGapNs (rows : List Row) (order : List Nat) : Option Int :=
  let gaps := sortByKey id (order.zipWith (fun previous next =>
    (rowAt rows next).sessionStart - (rowAt rows previous).sessionStop) order.tail)
  let middle := gaps.length / 2
  if gaps.isEmpty then none
  else if gaps.length % 2 = 1 then some (2 * gaps.getD middle 0)
  else some (gaps.getD (middle - 1) 0 + gaps.getD middle 0)

/-- The state of the walk over one partition. -/
structure SessionWalk where
  rows : List Row
  session : Int
  previous : Option Nat
  sessionMaxStop : Int

section Walk

variable (formatNumber : Binary64 → String) (rules : SessionGroupingRules)
  (doubledThreshold : Option Int)

/-- The gap before the row, measured under the selected basis. -/
def sessionGap (w : SessionWalk) (previous index : Nat) : Int :=
  let measuredFrom :=
    match rules.gapBasis with
    | .previousEpisodeStop => (rowAt w.rows previous).sessionStop
    | .sessionRunningMaximumStop => w.sessionMaxStop
  wrap64 ((rowAt w.rows index).sessionStart - measuredFrom)

/-- The gap begins a new session. -/
def gapBreaks (gap : Int) : Bool :=
  if rules.policy.boundaryGapStartsNewSession then doubledThreshold.getD 0 ≤ 2 * gap
  else doubledThreshold.getD 0 < 2 * gap

/-- The change of package begins a new session. -/
def packageSwitched (w : SessionWalk) (previous index : Nat) : Bool :=
  rules.policy.packageChangeEndsSession &&
    (rowAt w.rows previous).appPackageName ≠ (rowAt w.rows index).appPackageName

/-- The flag of a row that was compared with the one before it. -/
def breakFlag (session gap : Int) (breaks switched : Bool) : String :=
  "SESSION " ++ toString session ++ (if breaks || switched then " BREAK" else " JOIN") ++ " GAP " ++
    formatNumber (durationSecondsOf gap) ++ " S" ++ if switched then " APP CHANGE" else ""

/-- The flag of the first row of a partition. -/
def openFlag (session : Int) (intervalCount : Nat) : String :=
  "SESSION " ++ toString session ++ " OPEN" ++
    match rules.policy.gapThreshold, doubledThreshold with
    | some .partitionMedian, some doubled =>
        " MEDIAN " ++ formatNumber ((Binary64.ofInt doubled).divConst 2000000000) ++ " S N " ++
          toString intervalCount
    | _, _ => ""

/-- The row is given its session, and the flag if lineage is emitted. -/
def numberRow (session : Int) (flag : String) (row : Row) : Row :=
  let numbered := { row with usageSessionId := some session }
  if rules.emitLineage then pushRowFlag numbered flag else numbered

/-- One row of the walk. -/
def sessionStep (intervalCount : Nat) (w : SessionWalk) (index : Nat) : SessionWalk :=
  let thisStop := (rowAt w.rows index).sessionStop
  match w.previous with
  | none =>
      { rows := w.rows.modify index
          (numberRow rules w.session (openFlag formatNumber rules doubledThreshold w.session
            intervalCount))
        session := w.session
        previous := some index
        sessionMaxStop := max w.sessionMaxStop thisStop }
  | some previous =>
      let gap := sessionGap rules w previous index
      let breaks := gapBreaks rules doubledThreshold gap
      let switched := packageSwitched rules w previous index
      let session := if breaks || switched then w.session + 1 else w.session
      { rows := w.rows.modify index
          (numberRow rules session (breakFlag formatNumber session gap breaks switched))
        session := session
        previous := some index
        sessionMaxStop := max (if breaks || switched then i64Min else w.sessionMaxStop) thisStop }

end Walk

/-- The numbering of one partition. -/
def numberPartition (formatNumber : Binary64 → String) (rules : SessionGroupingRules)
    (threshold : SessionGapThreshold) (rows : List Row) (key : SessionPartitionKey) : List Row :=
  let order := partitionOrder rows rules.scope key
  let doubledThreshold :=
    match threshold with
    | .fixedNs ns => some (2 * ns)
    | .partitionMedian => doubledMedianGapNs rows order
  (order.foldl (sessionStep formatNumber rules doubledThreshold (order.length - 1))
    ⟨rows, 0, none, i64Min⟩).rows

/-- The partitions that hold a bounded usage row. -/
def sessionPartitions (rows : List Row) (scope : SessionBoundaryScope) :
    List SessionPartitionKey :=
  ((rows.filter isBoundedUsage).map fun row => sessionPartitionKey row scope).dedup

/-- `assign_usage_session_ids` -/
def assignUsageSessionIds (formatNumber : Binary64 → String) (rows : List Row)
    (rules : SessionGroupingRules) : List Row :=
  match rules.policy.gapThreshold with
  | none => rows
  | some threshold =>
      (sessionPartitions rows rules.scope).foldl (numberPartition formatNumber rules threshold) rows

end Chronicle.Pipeline
