import Chronicle.Credit.Intervals

/-!
# The credit decision of each session

A session is credited inside its own time, at most up to the cap. The gating rule chooses between
the screen stretches, the alive stretches and their intersection, with fallbacks for a device that
does not report its screen and for a window without any screen evidence.
-/

namespace Chronicle.Credit

open Chronicle.Library Chronicle.Library.Intervals Chronicle.Library.Machine Chronicle.Pipeline

/-- Which observations gate the credit. -/
inductive ScreenGatingRule where
  | screenAndLivenessV1
  | screenWitnessOnly
  | strictVisualOnly
  | deviceLivenessOnly
deriving DecidableEq, Repr

/-- `consults_screen_witness` -/
def ScreenGatingRule.consultsScreenWitness (rule : ScreenGatingRule) : Bool :=
  rule != .deviceLivenessOnly

/-- `requires_screen_witness` -/
def ScreenGatingRule.requiresScreenWitness (rule : ScreenGatingRule) : Bool :=
  rule == .strictVisualOnly

/-- What the rule keeps of the screen stretches and the alive stretches; the shipped rule is their
intersection. -/
def ScreenGatingRule.keep (rule : ScreenGatingRule) (screen alive : List CreditInterval) :
    List CreditInterval :=
  match rule with
  | .screenAndLivenessV1 => intersectIntervals screen alive
  | .screenWitnessOnly | .strictVisualOnly => screen
  | .deviceLivenessOnly => alive

/-- The options of the credit stage. -/
structure CreditOptions where
  creditedSessionCapMinutes : Binary64
  deviceLivenessGapToleranceMinutes : Binary64
  autoLockBridgeSeconds : Binary64
  bridgeScreenOffToSessionEnd : Bool
  noWitnessMinDayApps : Nat
  screenGatingRule : ScreenGatingRule
deriving DecidableEq

namespace CreditOptions

variable (options : CreditOptions)

/-- `tolerance_ns` -/
def toleranceNs : Int :=
  wrap64 ((options.deviceLivenessGapToleranceMinutes.mulConst 60).roundToI64 * 1000000000)

/-- `cap_ns`: the cap, rounded to whole seconds. -/
def capNs : Int :=
  wrap64 ((options.creditedSessionCapMinutes.mulConst 60).roundToI64 * 1000000000)

/-- `auto_lock_ns`, with the switch that goes with it. -/
def bridge : BridgeOptions where
  autoLockNs := wrap64 (options.autoLockBridgeSeconds.roundToI64 * 1000000000)
  offMeasuredToSessionEnd := options.bridgeScreenOffToSessionEnd

end CreditOptions

/-- `is_credit_session` -/
def isCreditSession (row : Row) : Bool :=
  row.interactionType = appUsage && row.minimumDurationAggregateEligible &&
    row.durationMinutes.any Binary64.isPositive

/-- The rows that are credited and the rows that pass by. -/
structure CreditPartition where
  sessions : List Row
  rest : List Row

/-- The packages used by each participant on each date. -/
abbrev DayApps := List ((String × String) × List String)

/-- The number of distinct packages of the row's participant on the row's date. -/
def dayAppCount (dayApps : DayApps) (row : Row) : Nat :=
  ((dayApps.lookup (row.participantId, row.date)).map List.length).getD 0

/-- What becomes of one session. -/
inductive CreditDecision where
  | passthrough
  | intervals (intervals : List CreditInterval) (sessionCapped noWitnessFallback : Bool)
deriving DecidableEq, Repr

namespace ScreenCreditSubstrate

variable (substrate : ScreenCreditSubstrate)

/-- The change points of the row's participant. -/
def pointsOf (row : Row) : List ScreenChangePoint :=
  (substrate.points.lookup (witnessKey row.participantId)).getD []

/-- `alive_spans` -/
def aliveSpans (toleranceNs : Int) : List (String × List CreditInterval) :=
  substrate.allTimestamps.map fun entry =>
    (entry.1, buildAliveSpans entry.2 toleranceNs ((substrate.boots.lookup entry.1).getD []))

/-- The alive spans of the row's participant, clipped to the window. -/
def aliveOf (toleranceNs : Int) (row : Row) (start stop : Int) : List CreditInterval :=
  clipAliveSpans (((substrate.aliveSpans toleranceNs).lookup (witnessKey row.participantId)).getD
    []) start stop

end ScreenCreditSubstrate

/-- `has_point`: the first change at or after the start does not lie beyond the stop. -/
def hasPoint (points : List ScreenChangePoint) (start stop : Int) : Bool :=
  (points.dropWhile fun point => point.timestampNs < start).head?.any fun point =>
    point.timestampNs ≤ stop

/-- The credited intervals of a session in the given window, and whether they are those of the
fallback for a window without screen evidence. -/
def gatedIntervals (substrate : ScreenCreditSubstrate) (dayApps : DayApps)
    (options : CreditOptions) (row : Row) (start stop : Int) : List CreditInterval × Bool :=
  let points := substrate.pointsOf row
  let alive := substrate.aliveOf options.toleranceNs row start stop
  let rule := options.screenGatingRule
  if !rule.consultsScreenWitness then (alive, false)
  else if points.isEmpty || !(witnessKey row.participantId ∈ substrate.capable) then
    if rule.requiresScreenWitness then ([], false) else ([(start, stop)], false)
  else if (screenStateAt points start).isNone && !hasPoint points start stop then
    if rule.requiresScreenWitness then ([], false)
    else if options.noWitnessMinDayApps ≤ dayAppCount dayApps row then (alive, true)
    else ([], false)
  else
    (rule.keep (creditableIntervals points start stop options.bridge) alive, false)

/-- The decision of one session. -/
def creditDecision (substrate : ScreenCreditSubstrate) (dayApps : DayApps)
    (options : CreditOptions) (row : Row) : CreditDecision :=
  match row.startTimestampNs, row.stopTimestampNs with
  | some start, some rawEnd =>
      if rawEnd ≤ start then .passthrough
      else
        let stop := min rawEnd (saturate64 (start + options.capNs))
        let credited := gatedIntervals substrate dayApps options row start stop
        .intervals credited.1 (stop < rawEnd) credited.2
  | _, _ => .passthrough

/-- `derive_credited_intervals` -/
def deriveCreditedIntervals (partition : CreditPartition) (substrate : ScreenCreditSubstrate)
    (dayApps : DayApps) (options : CreditOptions) : List CreditDecision :=
  partition.sessions.map (creditDecision substrate dayApps options)

/-- The total time of credited intervals. -/
def creditedTime (intervals : List CreditInterval) : Int :=
  (intervals.map fun interval => interval.2 - interval.1).sum

/-- The participant's device reports its screen, and its state is known at the start of the window
or changes within it. -/
def HasScreenEvidence (substrate : ScreenCreditSubstrate) (row : Row) (start stop : Int) : Prop :=
  witnessKey row.participantId ∈ substrate.capable ∧
    ((screenStateAt (substrate.pointsOf row) start).isSome = true ∨
      ∃ point ∈ substrate.pointsOf row, start ≤ point.timestampNs ∧ point.timestampNs ≤ stop)

section Window

variable {substrate : ScreenCreditSubstrate} {row : Row} {start stop : Int}

theorem pointsOf_ordered (h : substrate.Ordered) (row : Row) :
    (substrate.pointsOf row).Pairwise fun a b => a.timestampNs ≤ b.timestampNs := by
  unfold ScreenCreditSubstrate.pointsOf
  cases hlookup : substrate.points.lookup (witnessKey row.participantId) with
  | none => exact .nil
  | some points => exact h.points _ (mem_of_lookup_eq_some hlookup)

theorem apart_aliveOf (h : substrate.Ordered) (toleranceNs : Int) (row : Row) (start stop : Int) :
    Apart start stop (substrate.aliveOf toleranceNs row start stop) := by
  refine apart_clipAliveSpans start stop ?_
  cases hlookup : (substrate.aliveSpans toleranceNs).lookup (witnessKey row.participantId) with
  | none => exact .nil
  | some spans =>
      obtain ⟨entry, hentry, hspans⟩ := List.mem_map.mp (mem_of_lookup_eq_some hlookup)
      obtain ⟨-, rfl⟩ := Prod.mk.inj hspans
      exact pairwise_buildAliveSpans (h.allTimestamps entry hentry)

/-- Under every rule the credited intervals are apart and inside the window. -/
theorem apart_gatedIntervals (h : substrate.Ordered) (dayApps : DayApps) (options : CreditOptions)
    (row : Row) (hle : start < stop) :
    Apart start stop (gatedIntervals substrate dayApps options row start stop).1 := by
  have halive := apart_aliveOf h options.toleranceNs row start stop
  have hscreen : Apart start stop
      (creditableIntervals (substrate.pointsOf row) start stop options.bridge) :=
    apart_creditableIntervals hle.le (pointsOf_ordered h row)
  unfold gatedIntervals
  dsimp only
  split
  · exact halive
  · split
    · split
      · exact apart_nil
      · exact apart_singleton le_rfl hle le_rfl
    · split
      · split
        · exact apart_nil
        · split
          · exact halive
          · exact apart_nil
      · cases options.screenGatingRule with
        | screenAndLivenessV1 => exact hscreen.intersect halive
        | screenWitnessOnly | strictVisualOnly => exact hscreen
        | deviceLivenessOnly => exact halive

/-- With the changes in order, the test for a change in the window is exact. -/
theorem hasPoint_iff {points : List ScreenChangePoint}
    (hsorted : points.Pairwise fun a b => a.timestampNs ≤ b.timestampNs) :
    hasPoint points start stop = true ↔
      ∃ point ∈ points, start ≤ point.timestampNs ∧ point.timestampNs ≤ stop := by
  unfold hasPoint
  induction points with
  | nil => simp
  | cons point points ih =>
      rw [List.dropWhile_cons]
      split
      · case isTrue hbefore =>
          have hbefore : point.timestampNs < start := by simpa using hbefore
          rw [ih hsorted.of_cons]
          simp [not_le.mpr hbefore]
      · case isFalse hafter =>
          have hafter : start ≤ point.timestampNs := by simpa using hafter
          have hfirst := (List.pairwise_cons.mp hsorted).1
          simp only [List.head?_cons, Option.any_some, decide_eq_true_eq, List.mem_cons]
          constructor
          · exact fun hstop => ⟨point, .inl rfl, hafter, hstop⟩
          · rintro ⟨next, rfl | hnext, hlower, hupper⟩
            · exact hupper
            · exact (hfirst next hnext).trans hupper

/-- With screen evidence no fallback is taken: every rule keeps its part of the same stretches. -/
theorem gatedIntervals_of_evidence (h : substrate.Ordered) (dayApps : DayApps)
    (options : CreditOptions) (hevidence : HasScreenEvidence substrate row start stop) :
    gatedIntervals substrate dayApps options row start stop =
      (options.screenGatingRule.keep
        (creditableIntervals (substrate.pointsOf row) start stop options.bridge)
        (substrate.aliveOf options.toleranceNs row start stop), false) := by
  obtain ⟨hcapable, hseen⟩ := hevidence
  have hpoints : (substrate.pointsOf row).isEmpty = false := by
    cases hlist : substrate.pointsOf row with
    | nil => simp [hlist, screenStateAt] at hseen
    | cons point points => rfl
  have hwindow : ((screenStateAt (substrate.pointsOf row) start).isNone &&
      !hasPoint (substrate.pointsOf row) start stop) = false := by
    rcases hseen with hstate | hpoint
    · rw [← Option.not_isSome, hstate]
      rfl
    · rw [(hasPoint_iff (pointsOf_ordered h row)).mpr hpoint, Bool.not_true, Bool.and_false]
  unfold gatedIntervals
  dsimp only
  rw [hpoints, hwindow]
  cases hrule : options.screenGatingRule <;>
    simp [ScreenGatingRule.consultsScreenWitness, ScreenGatingRule.keep, hcapable]

end Window

/-- The intervals of a decision, with the session they credit. -/
theorem creditDecision_eq_intervals {substrate : ScreenCreditSubstrate} {dayApps : DayApps}
    {options : CreditOptions} {row : Row} {intervals : List CreditInterval}
    {sessionCapped noWitnessFallback : Bool}
    (h : creditDecision substrate dayApps options row =
      .intervals intervals sessionCapped noWitnessFallback) :
    ∃ start stop, row.startTimestampNs = some start ∧ row.stopTimestampNs = some stop ∧
      start < stop ∧ intervals = (gatedIntervals substrate dayApps options row start
        (min stop (saturate64 (start + options.capNs)))).1 := by
  unfold creditDecision at h
  split at h
  · case h_1 start stop hstart hstop =>
      split at h
      · exact absurd h (by simp)
      · case isFalse hle =>
          simp only [CreditDecision.intervals.injEq] at h
          exact ⟨start, stop, hstart, hstop, not_le.mp hle, h.1.symm⟩
  · exact absurd h (by simp)

/-- The saturation of the cap is never seen: the session's own stop lies below it. -/
theorem window_eq {start stop cap : Int} (hstart : Fits64 start) (hstop : Fits64 stop)
    (hcap : 0 < cap) : min stop (saturate64 (start + cap)) = min stop (start + cap) := by
  rw [fits64_iff] at hstart hstop
  unfold saturate64 i64Min i64Max
  omega

theorem creditDecision_of_endpoints {substrate : ScreenCreditSubstrate} {dayApps : DayApps}
    {options : CreditOptions} {row : Row} {start stop : Int}
    (hstart : row.startTimestampNs = some start) (hstop : row.stopTimestampNs = some stop)
    (hlt : start < stop) :
    creditDecision substrate dayApps options row =
      .intervals
        (gatedIntervals substrate dayApps options row start
          (min stop (saturate64 (start + options.capNs)))).1
        (min stop (saturate64 (start + options.capNs)) < stop)
        (gatedIntervals substrate dayApps options row start
          (min stop (saturate64 (start + options.capNs)))).2 := by
  simp [creditDecision, hstart, hstop, not_le.mpr hlt]

/-- The endpoints of a row are signed 64-bit values. -/
def EndpointsFit (row : Row) : Prop :=
  (∀ start ∈ row.startTimestampNs, Fits64 start) ∧ ∀ stop ∈ row.stopTimestampNs, Fits64 stop

variable {partition : CreditPartition} {rawEvents : List Row} {substrate : ScreenCreditSubstrate}
  {dayApps : DayApps} {options : CreditOptions}

/-- Under every rule the intervals of a decision are in order, apart, of positive length and inside
the session's time up to the cap, so they credit no more than either; and where the window has
screen evidence the shipped rule credits exactly the instants that both other rules credit. -/
theorem credited_intervals_within_session
    (hbuild : buildScreenCreditSubstrate rawEvents = .ok substrate) (hcap : 0 < options.capNs)
    (hrows : ∀ row ∈ partition.sessions, EndpointsFit row) :
    (∀ (index : Nat) (row : Row) (intervals : List CreditInterval)
        (sessionCapped noWitnessFallback : Bool),
      partition.sessions[index]? = some row →
      (deriveCreditedIntervals partition substrate dayApps options)[index]? =
        some (.intervals intervals sessionCapped noWitnessFallback) →
      ∃ start stop, row.startTimestampNs = some start ∧ row.stopTimestampNs = some stop ∧
        Apart start (min stop (start + options.capNs)) intervals ∧
        creditedTime intervals ≤ stop - start ∧ creditedTime intervals ≤ options.capNs) ∧
    ∀ (index : Nat) (row : Row) (start stop : Int),
      partition.sessions[index]? = some row → row.startTimestampNs = some start →
      row.stopTimestampNs = some stop → start < stop →
      HasScreenEvidence substrate row start (min stop (start + options.capNs)) →
      ∃ (screen alive both : List CreditInterval) (sessionCapped : Bool),
        (deriveCreditedIntervals partition substrate dayApps
          { options with screenGatingRule := .screenWitnessOnly })[index]? =
            some (.intervals screen sessionCapped false) ∧
        (deriveCreditedIntervals partition substrate dayApps
          { options with screenGatingRule := .deviceLivenessOnly })[index]? =
            some (.intervals alive sessionCapped false) ∧
        (deriveCreditedIntervals partition substrate dayApps
          { options with screenGatingRule := .screenAndLivenessV1 })[index]? =
            some (.intervals both sessionCapped false) ∧
        ∀ t, Covers both t ↔ Covers screen t ∧ Covers alive t := by
  have hordered := buildScreenCreditSubstrate_ordered hbuild
  constructor
  · intro index row intervals sessionCapped noWitnessFallback hrow hdecision
    unfold deriveCreditedIntervals at hdecision
    rw [List.getElem?_map, hrow, Option.map_some, Option.some.injEq] at hdecision
    obtain ⟨start, stop, hstart, hstop, hlt, rfl⟩ := creditDecision_eq_intervals hdecision
    obtain ⟨hfitStart, hfitStop⟩ := hrows row (List.mem_of_getElem? hrow)
    have hwindow := window_eq (hfitStart start hstart) (hfitStop stop hstop) hcap
    have hpositive : start < min stop (start + options.capNs) := lt_min hlt (by omega)
    have hapart := apart_gatedIntervals hordered dayApps options row hpositive
    have htime := hapart.sum_le hpositive.le
    rw [hwindow]
    refine ⟨start, stop, hstart, hstop, hapart, ?_, ?_⟩
    · exact htime.trans (sub_le_sub_right (min_le_left _ _) _)
    · have hreach := min_le_right stop (start + options.capNs)
      exact htime.trans (by omega)
  · intro index row start stop hrow hstart hstop hlt hevidence
    obtain ⟨hfitStart, hfitStop⟩ := hrows row (List.mem_of_getElem? hrow)
    have hwindow := window_eq (hfitStart start hstart) (hfitStop stop hstop) hcap
    have hpositive : start < min stop (start + options.capNs) := lt_min hlt (by omega)
    -- whatever the rule, the decision keeps its part of the same two lists
    have hdecide : ∀ rule : ScreenGatingRule,
        (deriveCreditedIntervals partition substrate dayApps
          { options with screenGatingRule := rule })[index]? =
        some (.intervals
          (rule.keep
            (creditableIntervals (substrate.pointsOf row) start
              (min stop (start + options.capNs)) options.bridge)
            (substrate.aliveOf options.toleranceNs row start (min stop (start + options.capNs))))
          (min stop (start + options.capNs) < stop) false) := by
      intro rule
      have hgated := gatedIntervals_of_evidence hordered dayApps
        { options with screenGatingRule := rule } hevidence
      have hdecision := @creditDecision_of_endpoints substrate dayApps
        { options with screenGatingRule := rule } row start stop hstart hstop hlt
      have hcapped : min stop (saturate64 (start +
          CreditOptions.capNs { options with screenGatingRule := rule })) =
          min stop (start + options.capNs) := hwindow
      rw [hcapped, hgated] at hdecision
      unfold deriveCreditedIntervals
      rw [List.getElem?_map, hrow, Option.map_some, hdecision]
      rfl
    refine ⟨_, _, _, _, hdecide .screenWitnessOnly, hdecide .deviceLivenessOnly,
      hdecide .screenAndLivenessV1, fun t => ?_⟩
    exact covers_intersect
      (apart_creditableIntervals hpositive.le (pointsOf_ordered hordered row))
      (apart_aliveOf hordered _ row start _)

/-- The screen turns on, off for one second and on again. -/
def blipEvents : List Row :=
  [{ participantId := "p", eventTimestampNs := 0, interactionType := "Screen Interactive" },
    { participantId := "p", eventTimestampNs := 2000000000
      interactionType := "Screen Non-Interactive" },
    { participantId := "p", eventTimestampNs := 3000000000
      interactionType := "Screen Interactive" },
    { participantId := "p", eventTimestampNs := 5000000000, interactionType := "Activity Paused" }]

/-- The evidence of these events. -/
def blipSubstrate : ScreenCreditSubstrate where
  points := [("p", [⟨0, .on, []⟩, ⟨2000000000, .off, []⟩, ⟨3000000000, .on, []⟩])]
  boots := [("p", [])]
  allTimestamps := [("p", [0, 2000000000, 3000000000, 5000000000])]
  capable := ["p"]

/-- A cap of six seconds, an hour of tolerance and no bridging. -/
def blipOptions : CreditOptions where
  creditedSessionCapMinutes := .finite (1 / 10)
  deviceLivenessGapToleranceMinutes := .finite 60
  autoLockBridgeSeconds := .finite 0
  bridgeScreenOffToSessionEnd := false
  noWitnessMinDayApps := 1
  screenGatingRule := .screenAndLivenessV1

/-- A session of ten seconds. -/
def blipSession : Row :=
  { participantId := "p", startTimestampNs := some 0, stopTimestampNs := some 10000000000 }

/-- Of that session the two lit stretches before the last event are credited, which are the
instants that the screen and the liveness both credit. -/
theorem blip_session_credited :
    Apart 0 (min 10000000000 (0 + blipOptions.capNs))
      [(0, 2000000000), (3000000000, 5000000000)] ∧
    ∃ screen alive : List CreditInterval, ∀ t,
      Covers [(0, 2000000000), (3000000000, 5000000000)] t ↔ Covers screen t ∧ Covers alive t := by
  have hdecision : deriveCreditedIntervals ⟨[blipSession], []⟩ blipSubstrate [] blipOptions =
      [.intervals [(0, 2000000000), (3000000000, 5000000000)] true false] := by decide +kernel
  have hrows : ∀ row ∈ [blipSession], EndpointsFit row := by
    intro row hrow
    obtain rfl := List.mem_singleton.mp hrow
    simp [EndpointsFit, blipSession, fits64_iff]
  have hevidence : HasScreenEvidence blipSubstrate blipSession 0
      (min 10000000000 (0 + blipOptions.capNs)) := ⟨by decide, .inl (by decide)⟩
  obtain ⟨hwithin, hcommon⟩ := @credited_intervals_within_session ⟨[blipSession], []⟩ blipEvents
    blipSubstrate [] blipOptions (by decide +kernel) (by decide +kernel) hrows
  obtain ⟨start, stop, hstart, hstop, hapart, -⟩ := hwithin 0 blipSession
    [(0, 2000000000), (3000000000, 5000000000)] true false rfl (by rw [hdecision]; rfl)
  cases hstart
  cases hstop
  obtain ⟨screen, alive, both, sessionCapped, -, -, hboth, hcovers⟩ :=
    hcommon 0 blipSession 0 10000000000 rfl rfl rfl (by decide) hevidence
  rw [show ({ blipOptions with screenGatingRule := .screenAndLivenessV1 } : CreditOptions) =
    blipOptions from rfl, hdecision] at hboth
  cases hboth
  exact ⟨hapart, screen, alive, hcovers⟩

end Chronicle.Credit
