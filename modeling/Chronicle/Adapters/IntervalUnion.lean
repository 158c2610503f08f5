import Chronicle.Library.Binary64
import Chronicle.Library.KeyedUnions
import Chronicle.Library.StableSort
import Chronicle.Library.Stages
import Mathlib.Data.String.Basic

/-!
# Unions of the intervals of participants

The intervals that a scope selects are united for each participant. Coordinates are numbers of
seconds, truncated to 32-bit integers.
-/

namespace Chronicle.Adapters

open Chronicle.Library Chronicle.Library.KeyedUnions Chronicle.Library.StableSort

/-- `ParticipantInterval` -/
structure ParticipantInterval where
  participantId : String
  applicationName : Option String
  applicationCategory : Option String
  startUnixSeconds : Binary64
  endUnixSeconds : Binary64
  derivedDurationSeconds : Binary64
deriving DecidableEq

/-- `ScopeSelector` -/
inductive ScopeSelector where
  | all
  | applicationNameIn (names : List String)
  | applicationCategoryEquals (category : String)

/-- `IntervalUnionScope` -/
structure IntervalUnionScope where
  scopeId : String
  selector : ScopeSelector

/-- `DurationUnit` -/
inductive DurationUnit where
  | seconds
  | minutes
  | hours
  | days
deriving DecidableEq, Repr

/-- `UnionInterval` -/
structure UnionInterval where
  participantId : String
  startUnixSeconds : Int
  endUnixSeconds : Int
  duration : Binary64
deriving DecidableEq

/-- `ScopeIntervals` -/
structure ScopeIntervals where
  scopeId : String
  intervals : List UnionInterval
  durationUnit : DurationUnit
deriving DecidableEq

/-- `Int32Interval` -/
structure Int32Interval where
  source : ParticipantInterval
  start : Int
  stop : Int

/-- `int32_coordinate` -/
def int32Coordinate (value : Binary64) (rowIndex : Nat) : Except String Int :=
  let failure := "participant-scoped interval row " ++ toString rowIndex ++
    " has a coordinate outside signed int32"
  match value with
  | .finite x =>
      if Binary64.truncate x < -2147483648 ∨ Binary64.truncate x > 2147483647 then .error failure
      else .ok (Binary64.truncate x)
  | _ => .error failure

/-- `duration_unit` -/
def durationUnit (intervals : List (Keyed String Int)) : DurationUnit :=
  match (intervals.map fun interval => (interval.stop - interval.start).natAbs).min? with
  | some seconds =>
      if seconds ≥ 86400 then .days
      else if seconds ≥ 3600 then .hours
      else if seconds ≥ 60 then .minutes
      else .seconds
  | none => .seconds

/-- The divisor of the durations. -/
def DurationUnit.divisor : DurationUnit → ℚ
  | .seconds => 1
  | .minutes => 60
  | .hours => 3600
  | .days => 86400

/-- `selected` -/
def selected (row : ParticipantInterval) : ScopeSelector → Bool
  | .all => true
  | .applicationNameIn names => row.applicationName.any names.contains
  | .applicationCategoryEquals category => row.applicationCategory = some category

/-- The interval under its participant. -/
def Int32Interval.keyed (row : Int32Interval) : Keyed String Int :=
  ⟨row.source.participantId, row.start, row.stop⟩

/-- The key that a scope's rows are sorted by. -/
def Int32Interval.sortKey (row : Int32Interval) : String ×ₗ Int ×ₗ Int :=
  toLex (row.source.participantId, toLex (row.start, row.stop))

/-- The united intervals before their durations are filled in. -/
def unitedIntervals (rows : List Int32Interval) : List (Keyed String Int) :=
  union ((sortByKey Int32Interval.sortKey rows).map Int32Interval.keyed)

/-- `union_scope` -/
def unionScope (scope : IntervalUnionScope) (rows : List Int32Interval) : ScopeIntervals :=
  let intervals := unitedIntervals rows
  let unit := durationUnit intervals
  { scopeId := scope.scopeId
    intervals := intervals.map fun interval =>
      { participantId := interval.key
        startUnixSeconds := interval.start
        endUnixSeconds := interval.stop
        duration := (Binary64.ofInt (interval.stop - interval.start)).divConst unit.divisor }
    durationUnit := unit }

/-- What `participant_scoped_interval_unions` makes of one row. -/
def int32Row (rowIndex : Nat) (row : ParticipantInterval) : Except String Int32Interval :=
  let place := "participant-scoped interval row " ++ toString rowIndex
  if row.participantId = "" then .error (place ++ " has no participant_id")
  else if !row.derivedDurationSeconds.isFinite || !row.derivedDurationSeconds.isPositive then
    .error (place ++ " has non-positive or missing derived duration")
  else if !row.startUnixSeconds.isFinite || !row.endUnixSeconds.isFinite then
    .error (place ++ " has a non-finite interval")
  else if row.startUnixSeconds.ge row.endUnixSeconds then .error (place ++ " is not increasing")
  else do
    let start ← int32Coordinate row.startUnixSeconds rowIndex
    let stop ← int32Coordinate row.endUnixSeconds rowIndex
    return ⟨row, start, stop⟩

/-- The loop over the rows, from an index on. -/
def int32RowsFrom (rowIndex : Nat) : List ParticipantInterval → Except String (List Int32Interval)
  | [] => .ok []
  | row :: rows => do
      let first ← int32Row rowIndex row
      let rest ← int32RowsFrom (rowIndex + 1) rows
      return first :: rest

/-- `participant_scoped_interval_unions` -/
def participantScopedIntervalUnions (rows : List ParticipantInterval)
    (scopes : List IntervalUnionScope) : Except String (List ScopeIntervals) := do
  let int32Rows ← int32RowsFrom 0 rows
  return scopes.map fun scope =>
    unionScope scope (int32Rows.filter fun row => selected row.source scope.selector)

/-! ## Accepted rows -/

/-- The truncated coordinate of a number of seconds. -/
def truncatedSeconds : Binary64 → Int
  | .finite x => Binary64.truncate x
  | _ => 0

/-- The row with its truncated coordinates. -/
def ParticipantInterval.truncated (row : ParticipantInterval) : Int32Interval :=
  ⟨row, truncatedSeconds row.startUnixSeconds, truncatedSeconds row.endUnixSeconds⟩

/-- The row passes every check. -/
structure ParticipantInterval.Acceptable (row : ParticipantInterval) : Prop where
  participantId : row.participantId ≠ ""
  duration : row.derivedDurationSeconds.isFinite && row.derivedDurationSeconds.isPositive
  finite : row.startUnixSeconds.isFinite && row.endUnixSeconds.isFinite
  increasing : row.startUnixSeconds.ge row.endUnixSeconds = false
  start : -2147483648 ≤ row.truncated.start ∧ row.truncated.start ≤ 2147483647
  stop : -2147483648 ≤ row.truncated.stop ∧ row.truncated.stop ≤ 2147483647

theorem int32Coordinate_eq_ok {value : Binary64} {rowIndex : Nat} {coordinate : Int}
    (hfinite : value.isFinite = true) : int32Coordinate value rowIndex = .ok coordinate ↔
      (-2147483648 ≤ truncatedSeconds value ∧ truncatedSeconds value ≤ 2147483647) ∧
        coordinate = truncatedSeconds value := by
  cases value with
  | finite x =>
      rw [int32Coordinate, truncatedSeconds, Stages.ite_error_eq_ok, not_or, not_lt, not_lt,
        Except.ok.injEq, eq_comm]
  | infinity negative => cases hfinite
  | nan => cases hfinite

theorem int32Row_eq_ok {rowIndex : Nat} {row : ParticipantInterval} {made : Int32Interval} :
    int32Row rowIndex row = .ok made ↔ row.Acceptable ∧ made = row.truncated := by
  rw [int32Row, Stages.ite_error_eq_ok, Stages.ite_error_eq_ok, Stages.ite_error_eq_ok,
    Stages.ite_error_eq_ok]
  constructor
  · intro ⟨hid, hduration, hfinite, hincreasing, h⟩
    simp only [Bool.or_eq_true, Bool.not_eq_true', not_or, Bool.not_eq_false] at hduration hfinite
    obtain ⟨start, hstart, h⟩ := Stages.bind_eq_ok.mp h
    obtain ⟨stop, hstop, h⟩ := Stages.bind_eq_ok.mp h
    obtain ⟨hstartFits, rfl⟩ := (int32Coordinate_eq_ok hfinite.1).mp hstart
    obtain ⟨hstopFits, rfl⟩ := (int32Coordinate_eq_ok hfinite.2).mp hstop
    cases h
    exact ⟨⟨hid, Bool.and_eq_true_iff.mpr hduration, Bool.and_eq_true_iff.mpr hfinite,
      Bool.eq_false_iff.mpr hincreasing, hstartFits, hstopFits⟩, rfl⟩
  · rintro ⟨h, rfl⟩
    have hduration := Bool.and_eq_true_iff.mp h.duration
    have hfinite := Bool.and_eq_true_iff.mp h.finite
    refine ⟨h.participantId, by simp [hduration], by simp [hfinite], by simp [h.increasing], ?_⟩
    rw [(int32Coordinate_eq_ok hfinite.1).mpr ⟨h.start, rfl⟩,
      (int32Coordinate_eq_ok hfinite.2).mpr ⟨h.stop, rfl⟩]
    rfl

/-- The rows are accepted when each is, whatever its index. -/
theorem int32RowsFrom_eq_ok {rowIndex : Nat} {rows : List ParticipantInterval}
    {made : List Int32Interval} : int32RowsFrom rowIndex rows = .ok made ↔
      (∀ row ∈ rows, row.Acceptable) ∧ made = rows.map ParticipantInterval.truncated := by
  induction rows generalizing rowIndex made with
  | nil => simp [int32RowsFrom, eq_comm]
  | cons row rows ih =>
      rw [int32RowsFrom, Stages.bind_eq_ok, List.forall_mem_cons, List.map_cons]
      constructor
      · intro ⟨first, hfirst, h⟩
        obtain ⟨rest, hrest, h⟩ := Stages.bind_eq_ok.mp h
        obtain ⟨hrow, rfl⟩ := int32Row_eq_ok.mp hfirst
        obtain ⟨hrows, rfl⟩ := ih.mp hrest
        cases h
        exact ⟨⟨hrow, hrows⟩, rfl⟩
      · rintro ⟨⟨hrow, hrows⟩, rfl⟩
        refine ⟨_, int32Row_eq_ok.mpr ⟨hrow, rfl⟩, ?_⟩
        rw [ih.mpr ⟨hrows, rfl⟩]
        rfl

/-- Truncation keeps the ends in order. -/
theorem truncate_mono {x y : ℚ} (h : x ≤ y) : Binary64.truncate x ≤ Binary64.truncate y := by
  rw [Binary64.truncate, Binary64.truncate]
  split
  · next hx =>
      rw [if_pos (hx.trans h)]
      exact Int.floor_le_floor h
  · next hx =>
      split
      · next hy =>
          have hnonneg : 0 ≤ ⌊-x⌋ := Int.floor_nonneg.mpr (by linarith)
          have hfloor : 0 ≤ ⌊y⌋ := Int.floor_nonneg.mpr hy
          omega
      · next hy => exact neg_le_neg (Int.floor_le_floor (neg_le_neg h))

theorem ParticipantInterval.Acceptable.start_le_stop {row : ParticipantInterval}
    (h : row.Acceptable) : row.truncated.start ≤ row.truncated.stop := by
  obtain ⟨hstart, hstop⟩ := Bool.and_eq_true_iff.mp h.finite
  have hincreasing := h.increasing
  simp only [ParticipantInterval.truncated]
  cases hx : row.startUnixSeconds with
  | finite x =>
      cases hy : row.endUnixSeconds with
      | finite y =>
          rw [hx, hy] at hincreasing
          refine truncate_mono (le_of_lt ?_)
          simp only [Binary64.ge, Binary64.lt, Binary64.eqIeee, Bool.or_eq_false_iff,
            decide_eq_false_iff_not, not_lt] at hincreasing
          exact lt_of_le_of_ne hincreasing.1 hincreasing.2
      | infinity negative => rw [hy] at hstop; cases hstop
      | nan => rw [hy] at hstop; cases hstop
  | infinity negative => rw [hx] at hstart; cases hstart
  | nan => rw [hx] at hstart; cases hstart

/-! ## The union of a scope -/

/-- The selected input row under its participant. -/
def SelectedInterval (rows : List ParticipantInterval) (scope : IntervalUnionScope)
    (participantId : String) (start stop : Int) : Prop :=
  ∃ row ∈ rows, selected row scope.selector ∧ row.participantId = participantId ∧
    row.truncated.start = start ∧ row.truncated.stop = stop

/-- What the intervals of a scope are, for each participant. -/
structure UnionOf (rows : List ParticipantInterval) (scope : IntervalUnionScope)
    (intervals : List UnionInterval) : Prop where
  separated : intervals.Pairwise fun a b => a.participantId = b.participantId →
    a.startUnixSeconds ≤ b.startUnixSeconds ∧ a.endUnixSeconds < b.startUnixSeconds
  covers : ∀ (participantId : String) (t : ℚ),
    (∃ i ∈ intervals, i.participantId = participantId ∧ i.startUnixSeconds ≤ t ∧
      t ≤ i.endUnixSeconds) ↔
    ∃ start stop, SelectedInterval rows scope participantId start stop ∧ start ≤ t ∧ t ≤ stop
  starts : ∀ i ∈ intervals, ∃ stop,
    SelectedInterval rows scope i.participantId i.startUnixSeconds stop
  stops : ∀ i ∈ intervals, ∃ start,
    SelectedInterval rows scope i.participantId start i.endUnixSeconds

variable {rows rows' : List ParticipantInterval} {scope : IntervalUnionScope}
  {scopes : List IntervalUnionScope} {result : List ScopeIntervals}

/-- The rows of a scope, truncated and in order. -/
def scopeRows (rows : List ParticipantInterval) (scope : IntervalUnionScope) :
    List (Keyed String Int) :=
  (sortByKey Int32Interval.sortKey ((rows.map ParticipantInterval.truncated).filter fun row =>
    selected row.source scope.selector)).map Int32Interval.keyed

theorem mem_scopeRows {i : Keyed String Int} :
    i ∈ scopeRows rows scope ↔ SelectedInterval rows scope i.key i.start i.stop := by
  simp only [scopeRows, List.mem_map, mem_sortByKey, List.mem_filter, SelectedInterval]
  constructor
  · rintro ⟨_, ⟨⟨row, hrow, rfl⟩, hselected⟩, rfl⟩
    exact ⟨row, hrow, hselected, rfl, rfl, rfl⟩
  · rintro ⟨row, hrow, hselected, hkey, hstart, hstop⟩
    refine ⟨row.truncated, ⟨⟨row, hrow, rfl⟩, hselected⟩, ?_⟩
    rw [Int32Interval.keyed, hstart, hstop]
    exact congrArg (Keyed.mk · i.start i.stop) hkey

theorem inOrder_scopeRows : InOrder (scopeRows rows scope) := by
  refine List.pairwise_map.mpr ((pairwise_sortByKey Int32Interval.sortKey _).imp fun {a b} h => ?_)
  refine order_le_iff.mpr ?_
  obtain hlt | ⟨hkey, hle⟩ := Prod.Lex.toLex_le_toLex.mp h
  · exact .inl hlt
  · obtain hstart | ⟨hstart, -⟩ := Prod.Lex.toLex_le_toLex.mp hle
    · exact .inr ⟨hkey, hstart.le⟩
    · exact .inr ⟨hkey, hstart.le⟩

theorem proper_scopeRows (hrows : ∀ row ∈ rows, row.Acceptable) :
    Proper (scopeRows rows scope) := by
  intro i hi
  obtain ⟨row, hrow, -, -, hstart, hstop⟩ := mem_scopeRows.mp hi
  rw [← hstart, ← hstop]
  exact (hrows row hrow).start_le_stop

/-- The rows of a scope do not depend on the order of the input. -/
theorem scopeRows_perm (h : rows.Perm rows') : scopeRows rows' scope = scopeRows rows scope := by
  refine map_sortByKey_eq_of_perm ((h.map _).filter _) fun x _ y _ hkey => ?_
  obtain ⟨hid, hends⟩ := Prod.mk.inj hkey
  obtain ⟨hstart, hstop⟩ := Prod.mk.inj hends
  rw [Int32Interval.keyed, Int32Interval.keyed, hid, hstart, hstop]

/-- The united intervals of a scope, with a way of filling in the durations. -/
theorem unionOf_scopeRows (hrows : ∀ row ∈ rows, row.Acceptable)
    (duration : Keyed String Int → Binary64) :
    UnionOf rows scope ((union (scopeRows rows scope)).map fun interval =>
      ⟨interval.key, interval.start, interval.stop, duration interval⟩) where
  separated := by
    refine List.pairwise_map.mpr ((separated_union inOrder_scopeRows).imp fun {a b} h hkey => ?_)
    obtain hlt | hle := order_le_iff.mp h.1
    · exact absurd hkey hlt.ne
    · exact ⟨hle.2, h.2 hkey⟩
  covers := by
    intro participantId t
    have hcovers : Covers (fun n : Int => (n : ℚ)) (union (scopeRows rows scope)) participantId t ↔
        Covers (fun n : Int => (n : ℚ)) (scopeRows rows scope) participantId t :=
      covers_union Int.cast_mono inOrder_scopeRows (proper_scopeRows hrows)
    simp only [List.mem_map]
    constructor
    · rintro ⟨_, ⟨i, hi, rfl⟩, hkey, hlower, hupper⟩
      obtain ⟨j, hj, hkey, hlower, hupper⟩ := hcovers.mp ⟨i, hi, hkey, hlower, hupper⟩
      exact ⟨j.start, j.stop, hkey ▸ mem_scopeRows.mp hj, hlower, hupper⟩
    · rintro ⟨start, stop, hselected, hlower, hupper⟩
      have hmem : (⟨participantId, start, stop⟩ : Keyed String Int) ∈ scopeRows rows scope :=
        mem_scopeRows.mpr hselected
      obtain ⟨i, hi, hkey, hlower, hupper⟩ := hcovers.mpr ⟨_, hmem, rfl, hlower, hupper⟩
      exact ⟨_, ⟨i, hi, rfl⟩, hkey, hlower, hupper⟩
  starts := by
    intro _ hi
    obtain ⟨i, hmem, rfl⟩ := List.mem_map.mp hi
    obtain ⟨⟨j, hj, hkey, hstart⟩, -⟩ := ends_of_mem_union hmem
    exact ⟨j.stop, hkey ▸ hstart ▸ mem_scopeRows.mp hj⟩
  stops := by
    intro _ hi
    obtain ⟨i, hmem, rfl⟩ := List.mem_map.mp hi
    obtain ⟨-, j, hj, hkey, hstop⟩ := ends_of_mem_union hmem
    exact ⟨j.start, hkey ▸ hstop ▸ mem_scopeRows.mp hj⟩

/-- The intervals of every scope are the union of what the scope selects, participant by
participant, and do not depend on the order of the input rows. -/
theorem participantScopedIntervalUnions_unionOf
    (h : participantScopedIntervalUnions rows scopes = .ok result) :
    List.Forall₂ (fun scope out => out.scopeId = scope.scopeId ∧ UnionOf rows scope out.intervals)
        scopes result ∧
      ∀ rows', rows.Perm rows' → participantScopedIntervalUnions rows' scopes = .ok result := by
  obtain ⟨made, hmade, hresult⟩ := Stages.bind_eq_ok.mp h
  obtain ⟨hrows, rfl⟩ := int32RowsFrom_eq_ok.mp hmade
  obtain rfl := Except.ok.inj hresult
  constructor
  · refine List.forall₂_map_right_iff.mpr (List.forall₂_same.mpr fun scope _ => ⟨rfl, ?_⟩)
    exact unionOf_scopeRows hrows _
  · intro rows' hperm
    have hmade' : int32RowsFrom 0 rows' = .ok (rows'.map ParticipantInterval.truncated) :=
      int32RowsFrom_eq_ok.mpr ⟨fun row hrow => hrows row (hperm.mem_iff.mpr hrow), rfl⟩
    rw [participantScopedIntervalUnions, hmade']
    refine congrArg Except.ok (List.map_congr_left fun scope _ => ?_)
    have hscope : scopeRows rows' scope = scopeRows rows scope := scopeRows_perm hperm
    simp only [unionScope, unitedIntervals]
    rw [scopeRows, scopeRows] at hscope
    rw [hscope]

/-- Intervals of two participants that touch, and one that truncation empties. -/
def touchingRows : List ParticipantInterval :=
  [⟨"q", none, none, .finite 1, .finite 4, .finite 3⟩,
    ⟨"p", none, none, .finite (21 / 2), .finite (43 / 4), .finite 1⟩,
    ⟨"p", none, none, .finite 2, .finite 5, .finite 3⟩,
    ⟨"p", none, none, .finite 5, .finite 7, .finite 2⟩]

theorem participantScopedIntervalUnions_touchingRows :
    ∃ result, participantScopedIntervalUnions touchingRows [⟨"all", .all⟩] = .ok result ∧
      List.Forall₂ (fun scope out => out.scopeId = scope.scopeId ∧
        UnionOf touchingRows scope out.intervals) [⟨"all", .all⟩] result ∧
      ∀ rows', touchingRows.Perm rows' →
        participantScopedIntervalUnions rows' [⟨"all", .all⟩] = .ok result := by
  have haccepted : (participantScopedIntervalUnions touchingRows [⟨"all", .all⟩]).isOk = true := by
    decide +kernel
  cases h : participantScopedIntervalUnions touchingRows [⟨"all", .all⟩] with
  | error failure =>
      rw [h] at haccepted
      cases haccepted
  | ok result => exact ⟨result, rfl, participantScopedIntervalUnions_unionOf h⟩

end Chronicle.Adapters
