import Chronicle.Credit.Intervals
import Chronicle.Pipeline.ScreenSessions
import Chronicle.Pipeline.SingleOpen
import Chronicle.Pipeline.UsageSessions

/-!
# Elapsed times in 64 bits

Two matchers, the grouping into usage sessions, the crediting of a lit screen and the classification
of screen sessions form the time between two instants in `i64`, and the difference wraps. Each
stage judges by the exact time as long as no two of its instants are more than `i64::MAX` apart.
-/

namespace Chronicle.Pipeline

open Chronicle.Credit Chronicle.Library Chronicle.Library.Machine Chronicle.Library.StableSort

/-- The rows' events fell on these instants. -/
def EventsAt (instants : Set Int) (rows : List Row) : Prop :=
  ∀ row ∈ rows, row.eventTimestampNs ∈ instants

section Rows

variable {instants : Set Int} {rows : List Row} {index : Nat}

theorem EventsAt.timeAt_mem (h : EventsAt instants rows) (hindex : index < rows.length) :
    timeAt rows index ∈ instants :=
  h _ (rowAt_mem hindex)

end Rows

/-! ## The two matchers -/

section Matchers

variable (rows : List Row) (eligibleOpener : List Bool) (index : Nat)

/-- The state of `draxler_episodes` before the row. -/
def draxlerBefore : DraxlerState :=
  (List.range index).foldl (draxlerStep rows eligibleOpener)
    { output := {}, openUse := none, lastEventNs := none }

/-- The state of `morrison_episodes` before the row. -/
def morrisonBefore : MorrisonState :=
  (List.range index).foldl (morrisonStep rows eligibleOpener)
    { output := {}, openUse := none, pendingLock := none }

end Matchers

section Exact

variable (instants : Set Int)

/-- With a use open, `draxler_episodes` judges the silence before a row by its exact length. -/
def DraxlerExact : Prop :=
  ∀ rows eligibleOpener, EventsAt instants rows → ∀ index < rows.length, ∀ previous,
    (draxlerBefore rows eligibleOpener index).openUse.isSome →
      (draxlerBefore rows eligibleOpener index).lastEventNs = some previous →
        DecidesExactly (fun elapsed => draxlerInactivityNs < elapsed) (timeAt rows index - previous)

/-- With a use open, `morrison_episodes` judges the age of a pending lock by its exact length. -/
def MorrisonExact : Prop :=
  ∀ rows eligibleOpener, EventsAt instants rows → ∀ index < rows.length, ∀ lock,
    (morrisonBefore rows eligibleOpener index).openUse.isSome →
      (morrisonBefore rows eligibleOpener index).pendingLock = some lock →
        DecidesExactly (fun elapsed => morrisonLockTimeoutNs ≤ elapsed) (timeAt rows index - lock.2)

end Exact

section MatcherRuns

variable {instants : Set Int} {rows : List Row} {eligibleOpener : List Bool}

/-- The last event seen is one of the rows. -/
theorem draxlerBefore_last (hrows : EventsAt instants rows) {index : Nat}
    (hindex : index ≤ rows.length) :
    ∀ previous ∈ (draxlerBefore rows eligibleOpener index).lastEventNs, previous ∈ instants := by
  refine Loop.foldl_range_induction
    (P := fun _ (st : DraxlerState) => ∀ previous ∈ st.lastEventNs, previous ∈ instants)
    (by simp) fun i st hi _ previous hprevious => ?_
  obtain rfl : timeAt rows i = previous := by simpa [draxlerStep, timeAt] using hprevious
  exact hrows.timeAt_mem (hi.trans_le hindex)

theorem draxlerExact_of_near (h : Near instants) : DraxlerExact instants :=
  fun _ _ hrows _ hindex _ _ hprevious =>
    h.decidesExactly (hrows.timeAt_mem hindex) (draxlerBefore_last hrows hindex.le _ hprevious) _

/-- A pending lock is the instant of one of the rows. -/
def LockAt (instants : Set Int) (st : MorrisonState) : Prop :=
  ∀ lock ∈ st.pendingLock, lock.2 ∈ instants

theorem LockAt.resolve {st : MorrisonState} (h : LockAt instants st) (index : Nat) :
    LockAt instants (morrisonResolve rows st index) := by
  unfold morrisonResolve
  dsimp only
  split
  · case h_1 use lockIndex lockNs hopen hpending =>
    split
    · simp [morrisonLock, hopen, hpending, LockAt]
    · split
      · simp [LockAt]
      · exact h
  · exact h

theorem LockAt.row {st : MorrisonState} (h : LockAt instants st) (hrows : EventsAt instants rows)
    {index : Nat} (hindex : index < rows.length) :
    LockAt instants (morrisonRow rows eligibleOpener st index) := by
  unfold morrisonRow
  dsimp only
  split
  · simp [LockAt]
  · split
    · split
      · simp [LockAt]
      · exact h
    · split
      · intro lock hlock
        obtain rfl := Option.some.inj hlock
        exact hrows.timeAt_mem hindex
      · exact h

theorem morrisonBefore_lock (hrows : EventsAt instants rows) {index : Nat}
    (hindex : index ≤ rows.length) : LockAt instants (morrisonBefore rows eligibleOpener index) :=
  Loop.foldl_range_induction (P := fun _ st => LockAt instants st) (by simp [LockAt])
    fun i _ hi hst => (hst.resolve i).row hrows (hi.trans_le hindex)

theorem morrisonExact_of_near (h : Near instants) : MorrisonExact instants :=
  fun _ _ hrows _ hindex lock _ hlock =>
    h.decidesExactly (hrows.timeAt_mem hindex) (morrisonBefore_lock hrows hindex.le lock hlock) _

end MatcherRuns

/-! ## Usage sessions -/

/-- The bounds of the usage rows are these instants. -/
def BoundsAt (instants : Set Int) (rows : List Row) : Prop :=
  ∀ row ∈ rows, isBoundedUsage row = true →
    row.sessionStart ∈ instants ∧ row.sessionStop ∈ instants

section Sessions

variable (formatNumber : Binary64 → String) (rules : SessionGroupingRules)
  (doubledThreshold : Option Int)

/-- The gap of `sessionGap` before it is wrapped. -/
def exactGap (w : SessionWalk) (previous index : Nat) : Int :=
  let measuredFrom :=
    match rules.gapBasis with
    | .previousEpisodeStop => (rowAt w.rows previous).sessionStop
    | .sessionRunningMaximumStop => w.sessionMaxStop
  (rowAt w.rows index).sessionStart - measuredFrom

theorem sessionGap_eq_wrap64 (w : SessionWalk) (previous index : Nat) :
    sessionGap rules w previous index = wrap64 (exactGap rules w previous index) := rfl

/-- The walk over a partition before the `n`-th of its rows. -/
def walkBefore (rows : List Row) (order : List Nat) (n : Nat) : SessionWalk :=
  (order.take n).foldl (sessionStep formatNumber rules doubledThreshold (order.length - 1))
    ⟨rows, 0, none, i64Min⟩

end Sessions

/-- `assign_usage_session_ids` compares every gap of a partition by its exact length. -/
def SessionsExact (instants : Set Int) : Prop :=
  ∀ (formatNumber : Binary64 → String) (rules : SessionGroupingRules)
    (doubledThreshold : Option Int) (rows : List Row) (key : SessionPartitionKey),
    BoundsAt instants rows → ∀ n index previous,
      (partitionOrder rows rules.scope key)[n]? = some index →
      (walkBefore formatNumber rules doubledThreshold rows (partitionOrder rows rules.scope key)
        n).previous = some previous →
      DecidesExactly (gapBreaks rules doubledThreshold) (exactGap rules
        (walkBefore formatNumber rules doubledThreshold rows (partitionOrder rows rules.scope key) n)
        previous index)

section SessionRuns

variable {instants : Set Int} {rows : List Row} {order : List Nat} {w : SessionWalk}

/-- The walk keeps the bounds of all rows, and measures from a stop of the partition. -/
structure WalksAt (instants : Set Int) (rows : List Row) (order : List Nat) (w : SessionWalk) :
    Prop where
  start : ∀ index, (rowAt w.rows index).sessionStart = (rowAt rows index).sessionStart
  stop : ∀ index, (rowAt w.rows index).sessionStop = (rowAt rows index).sessionStop
  previous : ∀ previous ∈ w.previous, previous ∈ order
  begins : w.previous = none → w.sessionMaxStop = i64Min
  covered : w.previous.isSome → w.sessionMaxStop ∈ instants

/-- Numbering a row changes no bound. -/
theorem bounds_modify_numberRow (rules : SessionGroupingRules) (session : Int) (flag : String)
    (rows : List Row) (place index : Nat) :
    (rowAt (rows.modify place (numberRow rules session flag)) index).sessionStart =
        (rowAt rows index).sessionStart ∧
      (rowAt (rows.modify place (numberRow rules session flag)) index).sessionStop =
        (rowAt rows index).sessionStop := by
  simp only [rowAt, List.getD_eq_getElem?_getD, List.getElem?_modify]
  cases rows[index]? with
  | none => simp
  | some row =>
      by_cases hplace : place = index
      · simp [hplace]
      · simp [hplace]

theorem walksAt_step {formatNumber : Binary64 → String} {rules : SessionGroupingRules}
    {doubledThreshold : Option Int} {intervalCount index : Nat} (hfits : ∀ t ∈ instants, Fits64 t)
    (h : WalksAt instants rows order w) (hindex : index ∈ order)
    (hstop : (rowAt rows index).sessionStop ∈ instants) :
    WalksAt instants rows order
      (sessionStep formatNumber rules doubledThreshold intervalCount w index) := by
  have hleast : max i64Min (rowAt rows index).sessionStop = (rowAt rows index).sessionStop :=
    max_eq_right (hfits _ hstop).1
  have hprevious : ∀ previous ∈ some index, previous ∈ order := by simpa using hindex
  unfold sessionStep
  dsimp only
  rw [h.stop]
  split
  · case h_1 hnone =>
    refine ⟨fun i => ?_, fun i => ?_, hprevious, fun h => absurd h (by simp), fun _ => ?_⟩
    · exact (bounds_modify_numberRow ..).1.trans (h.start i)
    · exact (bounds_modify_numberRow ..).2.trans (h.stop i)
    · dsimp only
      rw [h.begins hnone, hleast]
      exact hstop
  · case h_2 previous hsome =>
    refine ⟨fun i => ?_, fun i => ?_, hprevious, fun h => absurd h (by simp), fun _ => ?_⟩
    · exact (bounds_modify_numberRow ..).1.trans (h.start i)
    · exact (bounds_modify_numberRow ..).2.trans (h.stop i)
    · dsimp only
      split
      · rw [hleast]
        exact hstop
      · rcases max_choice w.sessionMaxStop (rowAt rows index).sessionStop with hmax | hmax
        · rw [hmax]
          exact h.covered (by simp [hsome])
        · rw [hmax]
          exact hstop

theorem sessionsExact_of_near (hfits : ∀ t ∈ instants, Fits64 t) (h : Near instants) :
    SessionsExact instants := by
  intro formatNumber rules doubledThreshold rows key hrows n index previous hindex hprevious
  have hbounds : ∀ other ∈ partitionOrder rows rules.scope key,
      (rowAt rows other).sessionStart ∈ instants ∧ (rowAt rows other).sessionStop ∈ instants := by
    intro other hother
    obtain ⟨hlt, hbounded⟩ := List.mem_filter.mp (mem_sortByKey.mp hother)
    exact hrows _ (rowAt_mem (List.mem_range.mp hlt)) (Bool.and_eq_true_iff.mp hbounded).1
  have hwalk : WalksAt instants rows (partitionOrder rows rules.scope key)
      (walkBefore formatNumber rules doubledThreshold rows (partitionOrder rows rules.scope key)
        n) := by
    refine List.foldlRecOn _ _ ⟨fun _ => rfl, fun _ => rfl, by simp, fun _ => rfl, by simp⟩
      fun w hw other hother => ?_
    have hmem := List.mem_of_mem_take hother
    exact walksAt_step hfits hw hmem (hbounds other hmem).2
  have hstart := hwalk.start index ▸ (hbounds index (List.mem_of_getElem? hindex)).1
  have hmeasured := hwalk.stop previous ▸ (hbounds previous (hwalk.previous previous hprevious)).2
  have hcovered := hwalk.covered (by simp [hprevious])
  unfold exactGap
  dsimp only
  split
  · exact h.decidesExactly hstart hmeasured _
  · exact h.decidesExactly hstart hcovered _

end SessionRuns

/-! ## Screen crediting -/

section Credit

variable (options : BridgeOptions) (stop : Int)

/-- The length of a dark stretch that `bridges` compares with the timeout, before it is wrapped. -/
def darkLength (points : List ScreenChangePoint) (cursor segmentEnd : Int) : Option Int :=
  if options.offMeasuredToSessionEnd then some (segmentEnd - cursor)
  else points.head?.map fun next => next.timestampNs - cursor

theorem bridges_eq_any_darkLength (points : List ScreenChangePoint) (cursor segmentEnd : Int) :
    bridges options points cursor segmentEnd =
      (darkLength options points cursor segmentEnd).any fun elapsed =>
        wrap64 elapsed < options.autoLockNs := by
  unfold bridges darkLength
  split
  · rfl
  · cases points.head? <;> rfl

/-- The length compared at a segment, which has to be dark and to follow a credited stretch. -/
def segmentDark (points : List ScreenChangePoint) (state : Option ScreenCreditState)
    (cursor segmentEnd : Int) (current : Option CreditInterval) : List Int :=
  if state = some .off ∧ current.isSome then (darkLength options points cursor segmentEnd).toList
  else []

/-- The lengths that the loop of `creditable_intervals` compares. -/
def darkFrom : List ScreenChangePoint → Option ScreenCreditState → Int → Option CreditInterval →
    List Int
  | [], state, cursor, current =>
      if cursor < stop then segmentDark options [] state cursor stop current else []
  | point :: points, state, cursor, current =>
      if cursor < stop then
        let segmentEnd := min point.timestampNs stop
        if cursor < segmentEnd then
          segmentDark options (point :: points) state cursor segmentEnd current ++
            darkFrom points (some point.state) segmentEnd
              (creditSegment options (point :: points) state cursor segmentEnd current).2
        else darkFrom points (some point.state) segmentEnd current
      else []

/-- The lengths of dark stretches that `creditable_intervals` compares with the timeout. -/
def darkLengths (points : List ScreenChangePoint) (start : Int) : List Int :=
  darkFrom options stop (points.dropWhile fun point => point.timestampNs ≤ start)
    (screenStateAt points start) start none

end Credit

/-- `creditable_intervals` judges every dark stretch by its exact length. -/
def CreditExact (instants : Set Int) : Prop :=
  ∀ (points : List ScreenChangePoint) (start stop : Int) (options : BridgeOptions),
    (∀ point ∈ points, point.timestampNs ∈ instants) → start ∈ instants → stop ∈ instants →
      ∀ elapsed ∈ darkLengths options stop points start,
        DecidesExactly (fun elapsed => elapsed < options.autoLockNs) elapsed

section CreditRuns

variable {instants : Set Int} {options : BridgeOptions} {points : List ScreenChangePoint}
  {state : Option ScreenCreditState} {cursor stop segmentEnd : Int}
  {current : Option CreditInterval}

/-- A compared length is the difference of two instants. -/
theorem segmentDark_difference (hpoints : ∀ point ∈ points, point.timestampNs ∈ instants)
    (hcursor : cursor ∈ instants) (hend : segmentEnd ∈ instants) :
    ∀ elapsed ∈ segmentDark options points state cursor segmentEnd current,
      ∃ a ∈ instants, ∃ b ∈ instants, elapsed = a - b := by
  intro elapsed helapsed
  unfold segmentDark darkLength at helapsed
  split at helapsed
  · split at helapsed
    · obtain rfl : elapsed = segmentEnd - cursor := by simpa using helapsed
      exact ⟨_, hend, _, hcursor, rfl⟩
    · cases points with
      | nil => simp at helapsed
      | cons next rest =>
          obtain rfl : elapsed = next.timestampNs - cursor := by simpa using helapsed
          exact ⟨_, hpoints next List.mem_cons_self, _, hcursor, rfl⟩
  · simp at helapsed

theorem darkFrom_difference (hpoints : ∀ point ∈ points, point.timestampNs ∈ instants)
    (hcursor : cursor ∈ instants) (hstop : stop ∈ instants) :
    ∀ elapsed ∈ darkFrom options stop points state cursor current,
      ∃ a ∈ instants, ∃ b ∈ instants, elapsed = a - b := by
  induction points generalizing state cursor current with
  | nil =>
      unfold darkFrom
      split
      · exact segmentDark_difference hpoints hcursor hstop
      · simp
  | cons point points ih =>
      have hlater : ∀ later ∈ points, later.timestampNs ∈ instants := fun later hmem =>
        hpoints later (List.mem_cons_of_mem point hmem)
      have hend : min point.timestampNs stop ∈ instants := by
        rcases min_choice point.timestampNs stop with hmin | hmin
        · rw [hmin]
          exact hpoints point List.mem_cons_self
        · rw [hmin]
          exact hstop
      unfold darkFrom
      split
      · dsimp only
        split
        · intro elapsed helapsed
          rcases List.mem_append.mp helapsed with hhere | hthere
          · exact segmentDark_difference hpoints hcursor hend elapsed hhere
          · exact ih hlater hend elapsed hthere
        · exact ih hlater hend
      · simp

theorem creditExact_of_near (h : Near instants) : CreditExact instants := by
  intro points start stop options hpoints hstart hstop elapsed helapsed
  have hafter : ∀ point ∈ points.dropWhile fun point => point.timestampNs ≤ start,
      point.timestampNs ∈ instants := fun point hpoint =>
    hpoints point ((List.dropWhile_sublist _).subset hpoint)
  obtain ⟨a, ha, b, hb, rfl⟩ := darkFrom_difference hafter hstart hstop elapsed helapsed
  exact h.decidesExactly ha hb _

end CreditRuns

/-! ## Screen classification -/

/-- `classify_screen_sessions` tests the seconds that exactly passed before a session's stop: since
its last activity, and since or until a keyguard event. -/
def ClassificationExact (instants : Set Int) : Prop :=
  ∀ (rows : List Row), EventsAt instants rows →
    ∀ close ∈ inferScreenSessionSkeletons rows, ∀ stop, close.stopTimestampNs = some stop →
      ∀ test : Binary64 → Bool,
        (∀ last, close.state.lastMeaningfulTsNs = some last →
          DecidesExactly (fun elapsed => test (nsToSeconds elapsed)) (stop - last)) ∧
        ∀ shown ∈ keyguardTimestamps rows (close.participantId rows),
          DecidesExactly (fun elapsed => test (nsToSeconds elapsed)) (stop - shown)

section ClassificationRuns

variable {instants : Set Int} {rows : List Row}

/-- The last activity of a session fell on one of the instants. -/
def ActiveAt (instants : Set Int) (state : ScreenState) : Prop :=
  ∀ last ∈ state.lastMeaningfulTsNs, last ∈ instants

/-- So did the stop of a session that has one. -/
def StoppedAt (instants : Set Int) (close : ScreenSessionClose) : Prop :=
  ActiveAt instants close.state ∧ ∀ stop ∈ close.stopTimestampNs, stop ∈ instants

theorem ActiveAt.extended {state : ScreenState} {row : Row} (h : ActiveAt instants state)
    (hrow : row.eventTimestampNs ∈ instants) : ActiveAt instants (state.extended row) := by
  unfold ActiveAt ScreenState.extended
  dsimp only
  split
  · intro last hlast
    obtain rfl := Option.some.inj hlast
    exact hrow
  · exact h

theorem screenRowStep_at (index : Nat) {row : Row} {current : Option ScreenState}
    (hcurrent : ∀ state ∈ current, ActiveAt instants state)
    (hrow : row.eventTimestampNs ∈ instants) :
    (∀ state ∈ (screenRowStep index row current).1, ActiveAt instants state) ∧
      ∀ close ∈ (screenRowStep index row current).2, StoppedAt instants close := by
  cases current with
  | none =>
      unfold screenRowStep
      dsimp only
      split
      · simp [ScreenState.opened, ActiveAt]
      · simp
  | some state =>
      have hstate : ActiveAt instants state := hcurrent state rfl
      unfold screenRowStep
      dsimp only
      split
      · refine ⟨fun restarted hrestarted => ?_, by simp⟩
        obtain rfl := Option.some.inj hrestarted
        exact hstate
      · split
        · refine ⟨by simp, fun close hclose => ?_⟩
          obtain rfl := Option.some.inj hclose
          refine ⟨hstate.extended hrow, fun stop hstop => ?_⟩
          obtain rfl := Option.some.inj hstop
          exact hrow
        · refine ⟨fun extended hextended => ?_, by simp⟩
          obtain rfl := Option.some.inj hextended
          exact hstate.extended hrow

theorem screenWalk_at (hrows : EventsAt instants rows) :
    (∀ participantId, ∀ state ∈ (screenWalk rows).states participantId, ActiveAt instants state) ∧
      ∀ close ∈ (screenWalk rows).closes, StoppedAt instants close := by
  refine Loop.foldl_range_induction
    (P := fun _ (walk : ScreenWalk) =>
      (∀ participantId, ∀ state ∈ walk.states participantId, ActiveAt instants state) ∧
        ∀ close ∈ walk.closes, StoppedAt instants close)
    (by simp) fun index walk hindex ⟨hstates, hcloses⟩ => ?_
  obtain ⟨hnext, hclosed⟩ := screenRowStep_at index
    (hstates (rowAt rows index).participantId) (hrows _ (rowAt_mem hindex))
  unfold screenStep
  dsimp only
  refine ⟨fun participantId => ?_, fun close hclose => ?_⟩
  · by_cases hown : participantId = (rowAt rows index).participantId
    · rw [hown, Function.update_self]
      exact hnext
    · rw [Function.update_of_ne hown]
      exact hstates participantId
  · rcases List.mem_append.mp hclose with hold | hnew
    · exact hcloses close hold
    · exact hclosed close (Option.mem_toList.mp hnew)

theorem inferScreenSessionSkeletons_at (hrows : EventsAt instants rows) :
    ∀ close ∈ inferScreenSessionSkeletons rows, StoppedAt instants close := by
  obtain ⟨hstates, hcloses⟩ := screenWalk_at hrows
  intro close hclose
  rcases List.mem_append.mp (mem_sortByKey.mp hclose) with hended | hopen
  · exact hcloses close hended
  · obtain ⟨participantId, -, hmap⟩ := List.mem_filterMap.mp hopen
    obtain ⟨state, hstate, rfl⟩ := Option.map_eq_some_iff.mp hmap
    exact ⟨hstates participantId state hstate, by simp⟩

theorem classificationExact_of_near (h : Near instants) : ClassificationExact instants := by
  intro rows hrows close hclose stop hstop test
  obtain ⟨hactive, hstopped⟩ := inferScreenSessionSkeletons_at hrows close hclose
  have hstopAt : stop ∈ instants := hstopped stop hstop
  refine ⟨fun last hlast => h.decidesExactly hstopAt (hactive last hlast) _, fun shown hshown => ?_⟩
  obtain ⟨row, hrow, rfl⟩ := List.mem_map.mp (mem_sortByKey.mp hshown)
  exact h.decidesExactly hstopAt (hrows row (List.mem_filter.mp hrow).1) _

end ClassificationRuns

/-! ## All stages -/

/-- A use open at the first of two events, and the second. -/
def silence (first second : Int) : List Row :=
  [{ eventTimestampNs := first }, { eventTimestampNs := second }]

/-- A silence of more than `i64::MAX` is not judged by its exact length. -/
theorem near_of_draxlerExact {instants : Set Int} (hfits : ∀ t ∈ instants, Fits64 t)
    (h : DraxlerExact instants) : Near instants := by
  intro a ha b hb
  have hevents : EventsAt instants (silence b a) := by
    simp [EventsAt, silence, ha, hb]
  have hopen : (draxlerBefore (silence b a) [true] 1).openUse.isSome := rfl
  have hlast : (draxlerBefore (silence b a) [true] 1).lastEventNs = some b := rfl
  exact le_of_decidesExactly (hfits a ha) (hfits b hb) (by decide) (by decide)
    (h (silence b a) [true] hevents 1 Nat.one_lt_two b hopen hlast)

/-- Over a set of 64-bit instants every decision of the five stages is the one of the exact elapsed
time if and only if no two of the instants are more than `i64::MAX` apart. -/
theorem elapsed_times_exact_iff (instants : Set Int) (hfits : ∀ t ∈ instants, Fits64 t) :
    (DraxlerExact instants ∧ MorrisonExact instants ∧ SessionsExact instants ∧
      CreditExact instants ∧ ClassificationExact instants) ↔
      ∀ a ∈ instants, ∀ b ∈ instants, a - b ≤ i64Max := by
  constructor
  · rintro ⟨hdraxler, -⟩
    exact near_of_draxlerExact hfits hdraxler
  · intro h
    exact ⟨draxlerExact_of_near h, morrisonExact_of_near h, sessionsExact_of_near hfits h,
      creditExact_of_near h, classificationExact_of_near h⟩

theorem elapsed_times_exact_decade :
    (DraxlerExact {t | 1577836800000000000 ≤ t ∧ t < 1893456000000000000} ∧
      MorrisonExact {t | 1577836800000000000 ≤ t ∧ t < 1893456000000000000} ∧
      SessionsExact {t | 1577836800000000000 ≤ t ∧ t < 1893456000000000000} ∧
      CreditExact {t | 1577836800000000000 ≤ t ∧ t < 1893456000000000000} ∧
      ClassificationExact {t | 1577836800000000000 ≤ t ∧ t < 1893456000000000000}) ↔
      ∀ a ∈ {t : Int | 1577836800000000000 ≤ t ∧ t < 1893456000000000000},
        ∀ b ∈ {t : Int | 1577836800000000000 ≤ t ∧ t < 1893456000000000000}, a - b ≤ i64Max :=
  elapsed_times_exact_iff _ fun t ht => by
    obtain ⟨hfirst, hlast⟩ := ht
    rw [fits64_iff]
    omega

/-- From the start of 1700 to the start of 2026 the interruption-aware rule sees no silence, and
leaves the use open. -/
theorem silence_of_three_centuries_missed :
    ¬ (∀ instants : Set Int, (∀ t ∈ instants, Fits64 t) → DraxlerExact instants) ∧
      wrap64 (1767225600000000000 - -8520336000000000000) ≤ draxlerInactivityNs ∧
      (draxlerEpisodes (silence (-8520336000000000000) 1767225600000000000) [true]).missingIndices =
        [0] := by
  refine ⟨fun h => ?_, by decide +kernel, by decide +kernel⟩
  have hfits : ∀ t ∈ ({-8520336000000000000, 1767225600000000000} : Set Int), Fits64 t := by
    rintro t (rfl | rfl) <;> decide
  have hnear := near_of_draxlerExact hfits (h _ hfits) 1767225600000000000 (by simp)
    (-8520336000000000000) (by simp)
  exact absurd hnear (by decide)

end Chronicle.Pipeline
