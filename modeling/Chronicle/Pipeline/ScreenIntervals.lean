import Chronicle.Pipeline.ScreenSkeletons
import Chronicle.Screens.NativeOutput

/-!
# The intervals of the native screen chain

The sessions and the stops without a session as the canonical adapter takes them, and the construction
output that it makes of them.
-/

namespace Chronicle.Pipeline

open Chronicle.Credit Chronicle.Library.StableSort Chronicle.Screens

/-! ## Inputs of the adapter -/

/-- The close reason of a session that the event type ended. -/
def screenCloseReason : Option String → ScreenIntervalCloseReason
  | none => .rightCensoredObservationWindow
  | some eventType =>
      if eventType = "Device Screen Off" then .deviceScreenOff
      else if eventType = "Device Shutdown" then .deviceShutdown
      else .screenNonInteractive

/-- The interval input of one session; its start has a lineage. -/
def ScreenSessionClose.intervalInput (rows : List Row) (close : ScreenSessionClose) :
    ChronicleScreenIntervalInput where
  participantId := close.participantId rows
  startNs := close.state.startTimestampNs
  stopNs := close.stopTimestampNs
  startBoundarySourceRow := close.state.startSourceDataRows.iter.headD 0
  stopBoundarySourceRow := close.stopSourceDataRows.iter.head?
  startSourceRows := close.state.startSourceDataRows.iter
  stopSourceRows := close.stopSourceDataRows.iter
  closeReason := screenCloseReason close.stopEventType

/-- `chronicle_interval_inputs` -/
def chronicleIntervalInputs (rows : List Row) (closes : List ScreenSessionClose) :
    List ChronicleScreenIntervalInput := closes.map (·.intervalInput rows)

/-- The loop of `chronicle_orphan_stop_issues`; `opened` are the participants with a session. -/
def orphanStopsFrom : List String → List Row → List ScreenConstructionIssue
  | _, [] => []
  | opened, row :: rest =>
      if row.startsScreen then orphanStopsFrom (row.participantId :: opened) rest
      else if row.stopsScreen then
        if row.participantId ∈ opened then
          orphanStopsFrom (opened.filter (· ≠ row.participantId)) rest
        else
          (row.sourceDataRows.iter.head?.map fun source =>
            issue row.participantId source .chronicleOrphanStop).toList ++
            orphanStopsFrom opened rest
      else orphanStopsFrom opened rest

/-- `chronicle_orphan_stop_issues` -/
def chronicleOrphanStopIssues (rows : List Row) : List ScreenConstructionIssue :=
  orphanStopsFrom [] rows

/-- What a request-neutral construction reads of a run; the options digest is that of the native
strategy alone, `b05_screen_strategy_digest`. -/
structure NeutralRequest where
  rawInputSha256 : String
  rawEvents : List RawB05Event
  fragmentedParticipants : List String
  optionsDigest : String

/-- The input of the adapter for a request-neutral construction. -/
def NeutralRequest.input (request : NeutralRequest) : B05ApplicabilityInput where
  rawInputSha256 := request.rawInputSha256
  rawEvents := request.rawEvents
  evidence := none
  evidenceAssignmentDigest := none
  optionsDigest := request.optionsDigest
  selectionWasExplicit := false
  fragmentedParticipants := request.fragmentedParticipants

section Neutral

variable (sha256 : List UInt8 → List UInt8)

/-- `neutral_chronicle_screen_construction` -/
def neutralChronicleScreenConstruction (request : NeutralRequest)
    (intervals : List ChronicleScreenIntervalInput) (issues : List ScreenConstructionIssue) :
    Except String ScreenConstructionOutput :=
  (if request.fragmentedParticipants ≠ [] then
      adaptChronicleScreenIntervals sha256 request.input []
    else adaptChronicleScreenIntervalsWithIssues sha256 request.input intervals issues).mapError
    CapabilityEvidenceError.text

/-- `build_neutral_chronicle_screen_construction` -/
def buildNeutralChronicleScreenConstruction (request : NeutralRequest) (rows : List Row) :
    Except String ScreenConstructionOutput :=
  if request.fragmentedParticipants ≠ [] then
    neutralChronicleScreenConstruction sha256 request [] []
  else
    neutralChronicleScreenConstruction sha256 request
      (chronicleIntervalInputs rows (inferScreenSessionSkeletons rows))
      (chronicleOrphanStopIssues rows)

end Neutral

/-! ## The output of the adapter -/

section Output

variable {sha256 : List UInt8 → List UInt8} {request : NeutralRequest} {rows : List Row}

/-- The interval of a session. -/
def ScreenSessionClose.interval (sha256 : List UInt8 → List UInt8) (rows : List Row)
    (close : ScreenSessionClose) : ScreenIntervalEvidence :=
  (close.intervalInput rows).interval sha256

/-- Every construction of the run is an output of the adapter. -/
theorem buildNeutralChronicleScreenConstruction_whole
    (hwhole : request.fragmentedParticipants = []) :
    buildNeutralChronicleScreenConstruction sha256 request rows =
      .ok (chronicleOutput sha256 (request.input.chronicleReceipt.sealed sha256)
        request.rawEvents.length
        (sortByKey ScreenIntervalEvidence.key
          ((inferScreenSessionSkeletons rows).map (·.interval sha256 rows)))
        (sortByKey ScreenConstructionIssue.key (chronicleOrphanStopIssues rows))) := by
  have hinput : request.input.fragmentedParticipants = [] := hwhole
  rw [buildNeutralChronicleScreenConstruction, if_neg (not_not.mpr hwhole),
    neutralChronicleScreenConstruction, if_neg (not_not.mpr hwhole),
    adaptChronicleScreenIntervalsWithIssues, resolveB05Applicability_native hinput,
    chronicleIntervalInputs, List.map_map]
  rfl

/-- A split participant stream is refused. -/
theorem buildNeutralChronicleScreenConstruction_fragmented
    (hsplit : request.fragmentedParticipants ≠ []) :
    ∃ output, buildNeutralChronicleScreenConstruction sha256 request rows = .ok output ∧
      output.applicability.executable = false := by
  have hinput : request.input.fragmentedParticipants ≠ [] := hsplit
  refine ⟨{
    intervals := []
    applicability := (request.input.fragmentedReceipt .chronicleScreenInteractiveV1).sealed sha256
    constructionReceipt := none
    issues := [] }, ?_, rfl⟩
  rw [buildNeutralChronicleScreenConstruction, if_pos hsplit, neutralChronicleScreenConstruction,
    if_pos hsplit, adaptChronicleScreenIntervals, adaptChronicleScreenIntervalsWithIssues,
    resolveB05Applicability_fragmented hinput]
  rfl

end Output

/-! ## The issues -/

section Issues

variable {count : Nat} {rows : List Row} {opened : List String}

theorem sourceDataRow_orphanStopsFrom :
    ((orphanStopsFrom opened rows).map (·.sourceDataRow)).Sublist
      (rows.filterMap fun row => row.sourceDataRows.iter.head?) := by
  induction rows generalizing opened with
  | nil => exact List.nil_sublist _
  | cons row rest ih =>
      have hskip : ∀ opened, ((orphanStopsFrom opened rest).map (·.sourceDataRow)).Sublist
          ((row :: rest).filterMap fun row => row.sourceDataRows.iter.head?) := by
        intro opened
        rw [List.filterMap_cons]
        split
        · exact ih
        · exact ih.cons _
      rw [orphanStopsFrom]
      split
      · exact hskip _
      · split
        · split
          · exact hskip _
          · rw [List.filterMap_cons]
            cases row.sourceDataRows.iter.head? with
            | none => exact ih
            | some source => exact ih.cons_cons source
        · exact hskip _

/-- The issues of a canonical table ascend. -/
theorem pairwise_chronicleOrphanStopIssues (htable : CanonicalTable count rows) :
    (sortByKey ScreenConstructionIssue.key (chronicleOrphanStopIssues rows)).Pairwise
      fun a b => a.key < b.key := by
  refine pairwise_lt_sortByKey ?_
  have hheads : (rows.filterMap fun row => row.sourceDataRows.iter.head?).Nodup := by
    refine List.Pairwise.filterMap _ ?_ htable.disjoint
    intro a b hdisjoint source hsource source' hsource' heq
    subst heq
    exact hdisjoint source (List.mem_of_mem_head? hsource) (List.mem_of_mem_head? hsource')
  have hrows := hheads.sublist (@sourceDataRow_orphanStopsFrom rows [])
  refine List.pairwise_map.mpr ((List.pairwise_map.mp hrows).imp fun hne heq => hne ?_)
  exact congrArg (fun key : String ×ₗ Nat ×ₗ Nat => (ofLex (ofLex key).2).1) heq

end Issues

/-! ## The intervals -/

/-- The row that opened the session, the first one of the rows that say so. -/
def ScreenSessionClose.startBoundary (close : ScreenSessionClose) : Nat :=
  close.state.startSourceDataRows.iter.headD 0

/-- The row that ended the session. -/
def ScreenSessionClose.stopBoundary (close : ScreenSessionClose) : Option Nat :=
  close.stopSourceDataRows.iter.head?

/-- Where a session begins at the instant at which the one before it of the same participant began
or ended, it begins at a later row of the input. -/
def TouchInOrder (rows : List Row) (earlier later : ScreenSessionClose) : Prop :=
  earlier.participantId rows = later.participantId rows →
    (earlier.state.startTimestampNs = later.state.startTimestampNs →
      earlier.startBoundary < later.startBoundary) ∧
    (earlier.stopTimestampNs = some later.state.startTimestampNs →
      ∀ row ∈ earlier.stopBoundary, row ≤ later.startBoundary)

/-- Neighbouring sessions of one participant touch in the order of the input. -/
def SourceOrdered (rows : List Row) : Prop :=
  (inferScreenSessionSkeletons rows).IsChain (TouchInOrder rows)

section Intervals

variable {sha256 : List UInt8 → List UInt8} {count : Nat} {rows : List Row}
variable {close earlier later : ScreenSessionClose}

theorem head?_iter {lineage : SourceDataRows} (h : lineage.Lineage count) :
    lineage.iter.head? = some (lineage.iter.headD 0) := by
  cases hiter : lineage.iter with
  | nil => exact absurd hiter h.nonempty
  | cons source rest => rfl

theorem headD_mem_iter {lineage : SourceDataRows} (h : lineage.Lineage count) :
    lineage.iter.headD 0 ∈ lineage.iter := List.mem_of_mem_head? (head?_iter h)

theorem screenCloseReason_some (eventType : String) :
    screenCloseReason (some eventType) ≠ .rightCensoredObservationWindow := by
  rw [screenCloseReason]
  split
  · exact ScreenIntervalCloseReason.noConfusion
  · split
    · exact ScreenIntervalCloseReason.noConfusion
    · exact ScreenIntervalCloseReason.noConfusion

/-- The lineage of the row that ended a session. -/
theorem Ended.stopLineage (htable : CanonicalTable count rows) {stop : Nat}
    (h : Ended count rows close stop) : close.stopSourceDataRows.Lineage count :=
  h.stopSources ▸ htable.lineage_rowAt h.inTable

/-- The boundaries of a session have the shape that the validator asks for. -/
theorem boundaryShaped_session (htable : CanonicalTable count rows)
    (h : close ∈ inferScreenSessionSkeletons rows) :
    (close.interval sha256 rows).boundaryShaped count = true := by
  obtain ⟨_, _, hrun⟩ := running_of_mem htable h
  have hstart := hrun.startLineage
  refine boundaryShaped_interval.mpr ⟨headD_mem_iter hstart, ?_⟩
  rcases ended_or_unended htable h with ⟨stop, hended⟩ | ⟨last, hunended⟩
  · have hstop := hended.stopLineage htable
    refine ⟨fun row hrow => (List.mem_append.mp hrow).elim (hstart.inInput row)
      (hstop.inInput row), fun row hrow => List.mem_of_mem_head? hrow, ?_, ?_, ?_, ?_⟩
    · have hsome : close.stopSourceDataRows.iter.head?.isSome = true := head?_iter hstop ▸ rfl
      simp [ScreenSessionClose.intervalInput, hended.stopNs, hsome]
    · simp [ScreenSessionClose.intervalInput, hended.stopNs, hstop.nonempty]
    · intro ns hns
      cases hns.symm.trans hended.stopNs
      exact hended.start_le_stop htable
    · have hreason : (close.intervalInput rows).closeReason ≠ .rightCensoredObservationWindow := by
        rw [ScreenSessionClose.intervalInput, hended.stopType]
        exact screenCloseReason_some _
      exact ⟨fun hnone => absurd (hended.stopNs.symm.trans hnone) (Option.some_ne_none _),
        fun hcensored => absurd hcensored hreason⟩
  · refine ⟨fun row hrow => (List.mem_append.mp hrow).elim (hstart.inInput row) ?_, ?_, ?_, ?_, ?_,
      ?_⟩
    · simp [ScreenSessionClose.intervalInput, hunended.stopSources, SourceDataRows.iter]
    · simp [ScreenSessionClose.intervalInput, hunended.stopSources, SourceDataRows.iter]
    · simp [ScreenSessionClose.intervalInput, hunended.stopNs, hunended.stopSources,
        SourceDataRows.iter]
    · simp [ScreenSessionClose.intervalInput, hunended.stopNs, hunended.stopSources,
        SourceDataRows.iter]
    · simp [ScreenSessionClose.intervalInput, hunended.stopNs]
    · have hreason : (close.intervalInput rows).closeReason = .rightCensoredObservationWindow := by
        rw [ScreenSessionClose.intervalInput, hunended.stopType]
        rfl
      exact ⟨fun _ => hreason, fun _ => hunended.stopNs⟩

/-- What the interval of a session names is in the lineage of the session. -/
theorem mem_session_of_mem_interval (htable : CanonicalTable count rows)
    (h : close ∈ inferScreenSessionSkeletons rows) {source : Nat}
    (hsource : source ∈ (close.interval sha256 rows).startSourceRows ++
      (close.interval sha256 rows).stopSourceRows) :
    source ∈ close.state.sourceDataRows.iter := by
  obtain ⟨_, _, hrun⟩ := running_of_mem htable h
  rcases List.mem_append.mp hsource with hsource | hsource
  · exact hrun.startHeld source (mem_sortDedup.mp hsource)
  · have hstop : source ∈ close.stopSourceDataRows.iter := mem_sortDedup.mp hsource
    rcases ended_or_unended htable h with ⟨stop, hended⟩ | ⟨last, hunended⟩
    · exact hended.stopHeld source hstop
    · rw [hunended.stopSources] at hstop
      exact absurd hstop List.not_mem_nil

theorem startBoundary_mem_session (htable : CanonicalTable count rows)
    (h : close ∈ inferScreenSessionSkeletons rows) :
    close.startBoundary ∈ close.state.sourceDataRows.iter := by
  obtain ⟨_, _, hrun⟩ := running_of_mem htable h
  exact hrun.startHeld _ (headD_mem_iter hrun.startLineage)

/-- Two sessions in their order have ordered intervals that do not overlap just if they touch in the
order of the input. -/
theorem touchInOrder_iff (htable : CanonicalTable count rows)
    (hearlier : earlier ∈ inferScreenSessionSkeletons rows)
    (hkey : earlier.key rows ≤ later.key rows) (hends : EndsBefore rows earlier later)
    (hlater : later ∈ inferScreenSessionSkeletons rows) :
    (earlier.interval sha256 rows).key < (later.interval sha256 rows).key ∧
        (earlier.interval sha256 rows).overlaps (later.interval sha256 rows) = false ↔
      TouchInOrder rows earlier later := by
  have hkeys : (earlier.interval sha256 rows).key < (later.interval sha256 rows).key ↔
      earlier.participantId rows < later.participantId rows ∨
        earlier.participantId rows = later.participantId rows ∧
          (earlier.state.startTimestampNs < later.state.startTimestampNs ∨
            earlier.state.startTimestampNs = later.state.startTimestampNs ∧
              earlier.startBoundary < later.startBoundary) := by
    unfold ScreenIntervalEvidence.key
    rw [Prod.Lex.toLex_lt_toLex, Prod.Lex.toLex_lt_toLex]
    rfl
  rw [ScreenSessionClose.key, ScreenSessionClose.key, Prod.Lex.toLex_le_toLex,
    Prod.Lex.toLex_le_toLex] at hkey
  have hoverlaps : (earlier.interval sha256 rows).overlaps (later.interval sha256 rows) = false ↔
      (earlier.participantId rows = later.participantId rows →
        ¬ (later.state.startTimestampNs < earlier.stopTimestampNs.getD 9223372036854775807 ∨
          later.state.startTimestampNs = earlier.stopTimestampNs.getD 9223372036854775807 ∧
            ∃ row ∈ earlier.stopBoundary, later.startBoundary < row)) := by
    rw [ScreenIntervalEvidence.overlaps, ← Bool.not_eq_true]
    simp only [Bool.and_eq_true, Bool.or_eq_true, decide_eq_true_eq, Option.any_eq_true, not_and]
    rfl
  rw [hkeys, hoverlaps, TouchInOrder]
  by_cases hsame : earlier.participantId rows = later.participantId rows
  · obtain ⟨stop, hstop, hlt⟩ := hends hsame
    obtain ⟨_, hlast, hrun⟩ := running_of_mem htable hlater
    have hstart : earlier.state.startTimestampNs ≤ later.state.startTimestampNs := by
      have horder := hkey.resolve_left (by rw [hsame]; exact lt_irrefl _)
      rcases horder.2 with hlt | ⟨heq, _⟩
      · exact hlt.le
      · exact heq.le
    rcases ended_or_unended htable hearlier with ⟨stop', hended⟩ | ⟨_, hunended⟩
    · -- both sessions belong to one participant, so the earlier one ended before the later began
      cases hstop.symm.trans hended.stopIndex
      have hstopped : (rowAt rows stop).eventTimestampNs ≤ later.state.startTimestampNs :=
        hrun.startNs ▸ htable.time_le hlt.le (hrun.begun.trans_lt hlast)
      simp only [hsame, lt_irrefl, false_or, true_and, forall_const, hended.stopNs,
        Option.getD_some, Option.some_inj]
      refine and_congr ?_ ?_
      · exact ⟨fun h heq => (h.resolve_left heq.not_lt).2, fun h =>
          hstart.lt_or_eq.imp_right fun heq => ⟨heq, h heq⟩⟩
      · constructor
        · intro h heq row hrow
          exact not_lt.mp fun hbefore => h (.inr ⟨heq.symm, row, hrow, hbefore⟩)
        · rintro h (hbefore | ⟨heq, row, hrow, hbefore⟩)
          · exact absurd hstopped (not_le.mpr hbefore)
          · exact absurd (h heq.symm row hrow) (not_le.mpr hbefore)
    · cases hstop.symm.trans hunended.stopIndex
  · -- sessions of different participants are ordered by name and never overlap
    have hlt : earlier.participantId rows < later.participantId rows :=
      hkey.resolve_right fun h => hsame h.1
    simp only [hsame, hlt, true_or, false_imp_iff, and_self]

/-- The intervals of the sessions ascend without overlaps just if the sessions touch in the order of
the input. -/
theorem intervals_ordered_iff (htable : CanonicalTable count rows) :
    (((inferScreenSessionSkeletons rows).map (·.interval sha256 rows)).Pairwise
        fun a b => a.key < b.key) ∧
      invalidScreenDependency ((inferScreenSessionSkeletons rows).map (·.interval sha256 rows)) =
        none ↔ SourceOrdered rows := by
  have : IsTrans ScreenIntervalEvidence fun a b => a.key < b.key := ⟨fun _ _ _ => lt_trans⟩
  have hshaped : ∀ interval ∈ (inferScreenSessionSkeletons rows).map (·.interval sha256 rows),
      interval.misshapen = false := by
    intro interval hinterval
    obtain ⟨close, hclose, rfl⟩ := List.mem_map.mp hinterval
    exact misshapen_interval (boundaryShaped_session htable hclose)
  have hpairs := (pairwise_endsBefore htable).and
    (pairwise_sortByKey (ScreenSessionClose.key rows)
      ((screenWalk rows).closes ++ openSessions rows))
  have hneighbours : ∀ (i : Nat) (hi : i + 1 < (inferScreenSessionSkeletons rows).length),
      (((inferScreenSessionSkeletons rows)[i].interval sha256 rows).key <
          ((inferScreenSessionSkeletons rows)[i + 1].interval sha256 rows).key ∧
        ((inferScreenSessionSkeletons rows)[i].interval sha256 rows).overlaps
          ((inferScreenSessionSkeletons rows)[i + 1].interval sha256 rows) = false ↔
        TouchInOrder rows (inferScreenSessionSkeletons rows)[i]
          (inferScreenSessionSkeletons rows)[i + 1]) := by
    intro i hi
    have hpair := List.pairwise_iff_getElem.mp hpairs i (i + 1) (Nat.lt_of_succ_lt hi) hi
      (Nat.lt_succ_self i)
    exact touchInOrder_iff htable (List.getElem_mem _) hpair.2 hpair.1 (List.getElem_mem _)
  rw [invalidScreenDependency_eq_none, and_iff_right hshaped, ← List.isChain_iff_pairwise,
    List.isChain_map, List.isChain_map, SourceOrdered, List.isChain_iff_getElem,
    List.isChain_iff_getElem, List.isChain_iff_getElem]
  constructor
  · rintro ⟨hascending, hapart⟩ i hi
    exact (hneighbours i hi).mp ⟨hascending i hi, hapart i hi⟩
  · intro hordered
    exact ⟨fun i hi => ((hneighbours i hi).mpr (hordered i hi)).1,
      fun i hi => ((hneighbours i hi).mpr (hordered i hi)).2⟩

end Intervals

end Chronicle.Pipeline
