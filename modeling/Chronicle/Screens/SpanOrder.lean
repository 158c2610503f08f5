import Chronicle.Library.Cuts
import Chronicle.Screens.DirectTies
import Chronicle.Screens.ParryPasses
import Chronicle.Screens.ZhuTies

/-!
# The order of screen intervals

Every constructor cuts its intervals from the rows one after the other. So they are disjoint and
ascend, and only the last one can be open.
-/

namespace Chronicle.Screens

open Chronicle.Library Chronicle.Library.Cuts

/-- The row does not come later in time and stands before the other one in the source. -/
def RawB05Event.Before (first second : RawB05Event) : Prop :=
  first.ns ≤ second.ns ∧ first.sourceDataRow < second.sourceDataRow

instance (first second : RawB05Event) : Decidable (first.Before second) :=
  inferInstanceAs (Decidable (_ ∧ _))

/-- The rows have timestamps that do not decrease, and source rows that increase. -/
structure InSourceOrder (rows : List RawB05Event) : Prop where
  stamped : ∀ row ∈ rows, row.timestampNs.isSome
  ordered : rows.Pairwise RawB05Event.Before

variable {rows rows' : List RawB05Event}

theorem InSourceOrder.sublist (h : InSourceOrder rows) (hsub : rows'.Sublist rows) :
    InSourceOrder rows' :=
  ⟨fun row hrow => h.stamped row (hsub.mem hrow), h.ordered.sublist hsub⟩

theorem InSourceOrder.nodup (h : InSourceOrder rows) : (rows.map (·.sourceDataRow)).Nodup :=
  List.pairwise_map.mpr (h.ordered.imp fun hbefore => ne_of_lt hbefore.2)

/-! ## Intervals and spans -/

/-- The interval runs from the first row to the second, or has no end. -/
structure ScreenIntervalEvidence.Spans (interval : ScreenIntervalEvidence)
    (span : RawB05Event × Option RawB05Event) : Prop where
  startNs : interval.startNs = span.1.ns
  startRow : interval.startBoundarySourceRow = span.1.sourceDataRow
  stopNs : interval.stopNs = span.2.map (·.ns)
  stopRow : interval.stopBoundarySourceRow = span.2.map (·.sourceDataRow)
  rightCensored : interval.rightCensored = span.2.isNone

/-- The intervals are disjoint, ascend in time and in the source, and at most the last one is
open. -/
structure OrderedIntervals (intervals : List ScreenIntervalEvidence) : Prop where
  censored : ∀ interval ∈ intervals, interval.rightCensored = interval.stopNs.isNone ∧
    interval.rightCensored = interval.stopBoundarySourceRow.isNone
  runs : ∀ interval ∈ intervals, (∀ stopNs ∈ interval.stopNs, interval.startNs ≤ stopNs) ∧
    ∀ stopRow ∈ interval.stopBoundarySourceRow, interval.startBoundarySourceRow < stopRow
  disjoint : intervals.Pairwise fun first second =>
    ∃ stopNs ∈ first.stopNs, ∃ stopRow ∈ first.stopBoundarySourceRow,
      stopNs ≤ second.startNs ∧ stopRow < second.startBoundarySourceRow
  lastOpen : ∀ before interval after, intervals = before ++ interval :: after →
    interval.rightCensored = true → after = []

section Spans

variable {sha256 : List UInt8 → List UInt8} {participantId : String} {strategyId : Strategy}
variable {kind : ScreenIntervalKind} {start : RawB05Event} {stop : Option RawB05Event}
variable {startRows stopRows : List Nat} {reason : ScreenIntervalCloseReason}
variable {intervals : List ScreenIntervalEvidence} {spans : List (RawB05Event × Option RawB05Event)}

theorem spans_makeScreenInterval (hstop : ∀ row ∈ stop, row.timestampNs.isSome) :
    (makeScreenInterval sha256 participantId strategyId kind start stop startRows stopRows
      reason).Spans (start, stop) := by
  have hns : stop.bind (·.timestampNs) = stop.map (·.ns) := by
    cases stop with
    | none => rfl
    | some row =>
        obtain ⟨ns, hrow⟩ := Option.isSome_iff_exists.mp (hstop row rfl)
        simp [RawB05Event.ns, hrow]
  refine ⟨rfl, rfl, hns, rfl, ?_⟩
  show (stop.bind (·.timestampNs)).isNone = stop.isNone
  rw [hns, Option.isNone_map]

theorem exists_span (hspans : List.Forall₂ ScreenIntervalEvidence.Spans intervals spans)
    {interval : ScreenIntervalEvidence} (h : interval ∈ intervals) :
    ∃ span ∈ spans, interval.Spans span := by
  induction hspans with
  | nil => exact absurd h List.not_mem_nil
  | @cons _ span _ spans hfirst _ ih =>
      rcases List.mem_cons.mp h with rfl | h
      · exact ⟨span, List.mem_cons_self, hfirst⟩
      · obtain ⟨later, hlater, hspan⟩ := ih h
        exact ⟨later, List.mem_cons_of_mem _ hlater, hspan⟩

/-- What holds of any two spans holds of their intervals. -/
theorem pairwise_of_spans {R : ScreenIntervalEvidence → ScreenIntervalEvidence → Prop}
    {S : RawB05Event × Option RawB05Event → RawB05Event × Option RawB05Event → Prop}
    (hRS : ∀ ⦃first span⦄, first.Spans span → ∀ ⦃second span'⦄, second.Spans span' → S span span' →
      R first second)
    (hspans : List.Forall₂ ScreenIntervalEvidence.Spans intervals spans) (h : spans.Pairwise S) :
    intervals.Pairwise R := by
  induction hspans with
  | nil => exact .nil
  | cons hfirst hrest ih =>
      obtain ⟨hlater, htail⟩ := List.pairwise_cons.mp h
      refine List.pairwise_cons.mpr ⟨?_, ih htail⟩
      intro second hsecond
      obtain ⟨span, hspan, hspans⟩ := exists_span hrest hsecond
      exact hRS hfirst hspans (hlater span hspan)

/-- In a list where every interval but the last has an end, an open one is the last. -/
theorem nil_of_open {before after : List ScreenIntervalEvidence} {interval : ScreenIntervalEvidence}
    (h : (before ++ interval :: after).Pairwise fun first _ => first.stopNs.isSome)
    (hopen : interval.stopNs = none) : after = [] := by
  cases after with
  | nil => rfl
  | cons next after =>
      have hpair := (List.pairwise_cons.mp (List.pairwise_append.mp h).2.1).1 next
        List.mem_cons_self
      rw [hopen] at hpair
      exact nomatch hpair

/-- Intervals that were cut from ordered rows are ordered. -/
theorem orderedIntervals_of_cut (hrows : InSourceOrder rows) (hcut : Cut none rows spans)
    (hspans : List.Forall₂ ScreenIntervalEvidence.Spans intervals spans) :
    OrderedIntervals intervals := by
  have hwithin : ∀ span ∈ spans, ∀ stop ∈ span.2, span.1.Before stop := fun span hspan stop hstop =>
    hcut.start_stop hrows.ordered (fun _ h => absurd h (Option.not_mem_none _)) hspan hstop
  have hdisjoint : intervals.Pairwise fun first second =>
      ∃ stopNs ∈ first.stopNs, ∃ stopRow ∈ first.stopBoundarySourceRow,
        stopNs ≤ second.startNs ∧ stopRow < second.startBoundarySourceRow := by
    refine pairwise_of_spans ?_ hspans (hcut.pairwise hrows.ordered)
    intro first span hfirst second span' hsecond hstop
    obtain ⟨stop, hstop, hbefore⟩ := hstop
    rw [hfirst.stopNs, hfirst.stopRow, hsecond.startNs, hsecond.startRow, Option.mem_def.mp hstop]
    exact ⟨_, rfl, _, rfl, hbefore⟩
  have hcensored : ∀ interval ∈ intervals, interval.rightCensored = interval.stopNs.isNone ∧
      interval.rightCensored = interval.stopBoundarySourceRow.isNone := by
    intro interval hinterval
    obtain ⟨span, _, h⟩ := exists_span hspans hinterval
    rw [h.rightCensored, h.stopNs, h.stopRow, Option.isNone_map, Option.isNone_map]
    exact ⟨rfl, rfl⟩
  refine ⟨hcensored, ?_, hdisjoint, ?_⟩
  · intro interval hinterval
    obtain ⟨span, hspan, h⟩ := exists_span hspans hinterval
    rw [h.startNs, h.startRow, h.stopNs, h.stopRow]
    constructor
    · intro stopNs hstopNs
      obtain ⟨stop, hstop, rfl⟩ := Option.mem_map.mp hstopNs
      exact (hwithin span hspan stop hstop).1
    · intro stopRow hstopRow
      obtain ⟨stop, hstop, rfl⟩ := Option.mem_map.mp hstopRow
      exact (hwithin span hspan stop hstop).2
  · rintro before interval after rfl hopen
    have hinterval := hcensored interval (by simp)
    rw [hopen, eq_comm, Option.isNone_iff_eq_none] at hinterval
    refine nil_of_open (hdisjoint.imp ?_) hinterval.1
    intro first second h
    obtain ⟨stopNs, hstopNs, _⟩ := h
    rw [Option.mem_def.mp hstopNs]
    rfl

end Spans

/-! ## The native rule -/

section Constructors

variable {sha256 : List UInt8 → List UInt8} {participantId : String}

/-- The intervals are the ones that were cut from the rows. -/
def CutFrom (current : Option RawB05Event) (rows : List RawB05Event)
    (intervals : List ScreenIntervalEvidence) : Prop :=
  ∃ spans, Cut current rows spans ∧ List.Forall₂ ScreenIntervalEvidence.Spans intervals spans

theorem CutFrom.ordered {intervals : List ScreenIntervalEvidence} (h : CutFrom none rows intervals)
    (hrows : InSourceOrder rows) : OrderedIntervals intervals := by
  obtain ⟨spans, hcut, hspans⟩ := h
  exact orderedIntervals_of_cut hrows hcut hspans

theorem CutFrom.skip {current : Option RawB05Event} {intervals : List ScreenIntervalEvidence}
    (row : RawB05Event) (h : CutFrom current rows intervals) :
    CutFrom current (row :: rows) intervals := by
  obtain ⟨spans, hcut, hspans⟩ := h
  exact ⟨spans, hcut.skip row, hspans⟩

theorem CutFrom.start {row : RawB05Event} {intervals : List ScreenIntervalEvidence}
    (h : CutFrom (some row) rows intervals) : CutFrom none (row :: rows) intervals := by
  obtain ⟨spans, hcut, hspans⟩ := h
  exact ⟨spans, hcut.start, hspans⟩

theorem CutFrom.stop {start row : RawB05Event} {interval : ScreenIntervalEvidence}
    {intervals : List ScreenIntervalEvidence} (hspans : interval.Spans (start, some row))
    (h : CutFrom none rows intervals) :
    CutFrom (some start) (row :: rows) (interval :: intervals) := by
  obtain ⟨spans, hcut, hrest⟩ := h
  exact ⟨_, hcut.stop start, .cons hspans hrest⟩

theorem cutFrom_nil : CutFrom none [] [] := ⟨[], .done, .nil⟩

theorem cutFrom_open {start : RawB05Event} {interval : ScreenIntervalEvidence}
    (hspans : interval.Spans (start, none)) : CutFrom (some start) [] [interval] :=
  ⟨_, .unfinished start, .cons hspans .nil⟩

theorem spans_stop {row start : RawB05Event} {strategyId : Strategy} {kind : ScreenIntervalKind}
    {startRows stopRows : List Nat} {reason : ScreenIntervalCloseReason}
    (hrow : row.timestampNs.isSome) :
    (makeScreenInterval sha256 participantId strategyId kind start (some row) startRows stopRows
      reason).Spans (start, some row) :=
  spans_makeScreenInterval fun _ h => Option.mem_some_iff.mp h ▸ hrow

theorem spans_open {start : RawB05Event} {strategyId : Strategy} {kind : ScreenIntervalKind}
    {startRows stopRows : List Nat} {reason : ScreenIntervalCloseReason} :
    (makeScreenInterval sha256 participantId strategyId kind start none startRows stopRows
      reason).Spans (start, none) :=
  spans_makeScreenInterval fun _ h => absurd h (Option.not_mem_none _)

theorem cutFrom_chronicle (hrows : ∀ row ∈ rows, row.timestampNs.isSome)
    (current : Option (RawB05Event × List Nat)) :
    CutFrom (current.map Prod.fst) rows
      ((chronicleScan sha256 participantId).run current rows).intervals := by
  induction rows generalizing current with
  | nil =>
      cases current with
      | none => exact cutFrom_nil
      | some current => exact cutFrom_open spans_open
  | cons row rows ih =>
      obtain ⟨hrow, hrows⟩ := List.forall_mem_cons.mp hrows
      rw [Scan.run_cons]
      by_cases hstart : row.signal = .screenInteractive ∨
        row.signal = .combinedScreenInteractiveKeyguardShown
      · cases current with
        | none => simpa [chronicleScan, hstart] using (ih hrows (some (row, _))).start
        | some current =>
            simpa [chronicleScan, hstart] using (ih hrows (some (current.1, _))).skip row
      · by_cases hstop : row.signal = .screenNonInteractive ∨
          row.signal = .combinedScreenNonInteractiveKeyguardHidden ∨
          row.rawInteractionType = "Device Screen Off"
        · cases current with
          | none => simpa [chronicleScan, hstart, hstop] using (ih hrows none).skip row
          | some current =>
              simp only [chronicleScan, if_neg hstart, if_pos hstop]
              exact (ih hrows none).stop (spans_stop hrow)
        · simpa [chronicleScan, hstart, hstop] using (ih hrows current).skip row

/-! ## The unlock rules -/

variable (sha256 participantId) in
/-- The intervals of an unlock rule run from the first unlock after the last close to the first
closing row after it. -/
theorem firstSpans_direct {strategy : Strategy} (hrows : ∀ row ∈ rows, row.timestampNs.isSome) :
    (∃ spans, FirstSpans (fun row => row.signal = .keyguardHidden)
        (fun row => directCloses strategy row.signal = true) rows spans ∧
      List.Forall₂ ScreenIntervalEvidence.Spans
        ((directScan sha256 participantId strategy).run none rows).intervals spans) ∧
    ∀ start inside, start.signal = .keyguardHidden →
      (∀ row ∈ inside, ¬directCloses strategy row.signal = true) →
      ∃ spans, FirstSpans (fun row => row.signal = .keyguardHidden)
          (fun row => directCloses strategy row.signal = true) (start :: inside ++ rows) spans ∧
        List.Forall₂ ScreenIntervalEvidence.Spans
          ((directScan sha256 participantId strategy).run (some start) rows).intervals spans := by
  -- closed and open state together, since each leads into the other
  induction rows with
  | nil =>
      refine ⟨⟨[], .idle fun _ h => absurd h List.not_mem_nil, .nil⟩, ?_⟩
      intro start inside hstart hinside
      rw [List.append_nil]
      exact ⟨_, .unfinished (fun _ h => absurd h List.not_mem_nil) hstart hinside,
        .cons spans_open .nil⟩
  | cons row rows ih =>
      obtain ⟨hrow, hrows⟩ := List.forall_mem_cons.mp hrows
      obtain ⟨hclosed, hopen⟩ := ih hrows
      constructor
      · by_cases hhidden : row.signal = .keyguardHidden
        · rw [run_direct_opens hhidden]
          exact hopen row [] hhidden fun _ h => absurd h List.not_mem_nil
        · rw [Scan.run_cons_quiet (quiet_direct_closed hhidden)]
          obtain ⟨spans, hfirst, hspans⟩ := hclosed
          exact ⟨spans, hfirst.cons hhidden, hspans⟩
      · intro start inside hstart hinside
        by_cases hcloses : directCloses strategy row.signal = true
        · obtain ⟨spans, hfirst, hspans⟩ := hclosed
          rw [run_direct_closes hcloses]
          exact ⟨_, .finished (fun _ h => absurd h List.not_mem_nil) hstart hinside hcloses hfirst,
            .cons (spans_stop hrow) hspans⟩
        · rw [Scan.run_cons_quiet (quiet_direct_open (by simpa using hcloses))]
          have hstays : ∀ x ∈ inside ++ [row], ¬directCloses strategy x.signal = true := by
            intro x hx
            rcases List.mem_append.mp hx with hx | hx
            · exact hinside x hx
            · rwa [List.mem_singleton.mp hx]
          have hlater := hopen start (inside ++ [row]) hstart hstays
          rwa [← List.cons_append, List.append_assoc, List.singleton_append] at hlater

theorem cutFrom_direct {strategy : Strategy} (hrows : ∀ row ∈ rows, row.timestampNs.isSome) :
    CutFrom none rows
      (constructDirectUnlockPartition sha256 participantId strategy rows).intervals := by
  obtain ⟨spans, hfirst, hspans⟩ := (firstSpans_direct sha256 participantId hrows).1
  exact ⟨spans, hfirst.cut, hspans⟩

/-! ## Zhu's rule -/

/-- The row that the open interval starts with. -/
def ZhuState.start : ZhuState → Option RawB05Event
  | .idle | .waiting _ => none
  | .within start _ => some start

theorem start_zhuIdleNext (row : RawB05Event) : (zhuIdleNext row).start = none := by
  unfold zhuIdleNext
  split <;> rfl

theorem intervals_zhuIdleEmits (row : RawB05Event) :
    (zhuIdleEmits participantId row).intervals = [] := by
  unfold zhuIdleEmits
  split <;> rfl

theorem cutFrom_zhu (hrows : ∀ row ∈ rows, row.timestampNs.isSome) (state : ZhuState) :
    CutFrom state.start rows ((zhuScan sha256 participantId).run state rows).intervals := by
  induction rows generalizing state with
  | nil =>
      cases state with
      | idle | waiting => exact cutFrom_nil
      | within start startRows => exact cutFrom_open spans_open
  | cons row rows ih =>
      obtain ⟨hrow, hrows⟩ := List.forall_mem_cons.mp hrows
      have hidle := (ih hrows (zhuIdleNext row)).skip row
      rw [start_zhuIdleNext] at hidle
      cases state with
      | idle =>
          rw [run_zhu_cons, ScreenSemanticSignature.intervals_add, zhuEmits, intervals_zhuIdleEmits]
          exact hidle
      | waiting before =>
          by_cases hhidden : row.signal = .keyguardHidden
          · rw [run_zhu_hidden hhidden]
            exact (ih hrows (.within row _)).start
          · rw [run_zhu_waiting hhidden, run_zhu_cons, ScreenSemanticSignature.intervals_add,
              ScreenSemanticSignature.intervals_add, zhuEmits, intervals_zhuIdleEmits]
            exact hidle
      | within start startRows =>
          by_cases hcloses : zhuCloses row.signal = true
          · rw [run_zhu_closes hcloses]
            exact (ih hrows .idle).stop (spans_stop hrow)
          · rw [Scan.run_cons_quiet (quiet_within (by simpa using hcloses))]
            exact (ih hrows (.within start startRows)).skip row

/-! ## Sessions and glances -/

/-- The signals of the rows that begin or end a session or a glance. -/
def parryPlaces (signal : AndroidUsageSignal) : Bool :=
  match signal with
  | .screenInteractive | .screenNonInteractive | .deviceShutdown | .deviceStartup => true
  | _ => false

theorem isSome_parryEndpoint (previous next : Option RawB05Event) (row : RawB05Event) :
    (parryEndpoint previous next row).isSome = parryPlaces row.signal := by
  rw [parryEndpoint, Option.isSome_map]
  unfold parryKind parryPlaces
  cases row.signal <;> rfl

theorem row_of_mem_parryEndpoint {previous next : Option RawB05Event} {row : RawB05Event}
    {endpoint : ParryEndpoint} (h : parryEndpoint previous next row = some endpoint) :
    endpoint.row = row := by
  obtain ⟨kind, _, rfl⟩ := Option.map_eq_some_iff.mp h
  rfl

/-- The endpoints are the rows that begin or end something. -/
theorem map_row_parryEndpoints (previous : Option RawB05Event) (rows : List RawB05Event) :
    (parryEndpoints previous rows).map (·.row) = rows.filter fun row => parryPlaces row.signal := by
  induction rows generalizing previous with
  | nil => rfl
  | cons row rows ih =>
      rw [parryEndpoints, List.map_append, ih]
      have hplaces := isSome_parryEndpoint previous rows.head? row
      cases hendpoint : parryEndpoint previous rows.head? row with
      | none =>
          rw [hendpoint, Option.isSome_none] at hplaces
          rw [List.filter_cons_of_neg (by simp [← hplaces])]
          rfl
      | some endpoint =>
          rw [hendpoint, Option.isSome_some] at hplaces
          have hfilter : (row :: rows).filter (fun row => parryPlaces row.signal) =
              row :: rows.filter fun row => parryPlaces row.signal :=
            List.filter_cons_of_pos hplaces.symm
          rw [hfilter, Option.toList_some, List.map_singleton, row_of_mem_parryEndpoint hendpoint]
          rfl

theorem parryIntervals_pair {start stop : ParryEndpoint} {rest : List ParryEndpoint}
    (hstop : stop.kind.isStart = false) :
    parryIntervals sha256 participantId (start :: stop :: rest) =
      (parryInterval sha256 participantId start stop).toList ++
        parryIntervals sha256 participantId rest := by
  rw [parryIntervals]
  congr 1
  cases rest with
  | nil => rfl
  | cons next rest =>
      have hnone : parryInterval sha256 participantId stop next = none := by
        rw [parryInterval, if_neg (by simp [hstop])]
      rw [parryIntervals, hnone]
      rfl

theorem cutFrom_pairs {l : List ParryEndpoint} (h : Pairs l)
    (hrows : ∀ endpoint ∈ l, endpoint.row.timestampNs.isSome) :
    CutFrom none (l.map (·.row)) (parryIntervals sha256 participantId l) := by
  induction h with
  | nil => exact cutFrom_nil
  | @cons start stop rest hstart hstop hkind _ ih =>
      obtain ⟨_, hrows⟩ := List.forall_mem_cons.mp hrows
      obtain ⟨hrow, hrows⟩ := List.forall_mem_cons.mp hrows
      rw [parryIntervals_pair hstop, parryInterval, if_pos ⟨hstart, hkind⟩]
      exact ((ih hrows).stop (spans_stop hrow)).start

/-! ## All constructors -/

variable (sha256 participantId) in
/-- The constructor of a strategy. -/
def constructPartition (strategy : Strategy) (rows : List RawB05Event) : ScreenSemanticSignature :=
  match strategy with
  | .chronicleScreenInteractiveV1 => constructChroniclePartition sha256 participantId rows
  | .parryToth2025SessionGlanceV1 => constructParryTothPartition sha256 participantId rows
  | .zhu2018UnlockLockV1 => constructZhuPartition sha256 participantId rows
  | .unlockToLockV1 | .unlockToOffOrLockV1 =>
      constructDirectUnlockPartition sha256 participantId strategy rows

theorem orderedIntervals_parry (hrows : InSourceOrder rows) :
    OrderedIntervals (constructParryTothPartition sha256 participantId rows).intervals := by
  let endpoints := parryEndpoints none (rows.filter fun row => parryReads row.signal)
  let survivors := sessionPass.kept (glancePass.kept endpoints)
  have hsurvivors : (survivors.map (·.row)).Sublist rows := by
    have hkept : survivors.Sublist endpoints :=
      (kept_sublist sessionPass _).trans (kept_sublist glancePass endpoints)
    have hendpoints := map_row_parryEndpoints none (rows.filter fun row => parryReads row.signal)
    have hrowsOf := hkept.map (·.row)
    rw [hendpoints] at hrowsOf
    exact hrowsOf.trans (List.filter_sublist.trans List.filter_sublist)
  have hordered := hrows.sublist hsurvivors
  refine (cutFrom_pairs (pairs_survivors endpoints) ?_).ordered hordered
  intro endpoint hendpoint
  exact hordered.stamped endpoint.row (List.mem_map_of_mem hendpoint)

/-- Every constructor returns ordered intervals. -/
theorem orderedIntervals_constructPartition (hrows : InSourceOrder rows) (strategy : Strategy) :
    OrderedIntervals (constructPartition sha256 participantId strategy rows).intervals := by
  cases strategy with
  | chronicleScreenInteractiveV1 =>
      have hall : rows.filter (·.timestampNs.isSome) = rows :=
        List.filter_eq_self.mpr hrows.stamped
      rw [constructPartition, constructChroniclePartition, hall]
      exact (cutFrom_chronicle hrows.stamped none).ordered hrows
  | parryToth2025SessionGlanceV1 => exact orderedIntervals_parry hrows
  | zhu2018UnlockLockV1 =>
      rw [constructPartition, constructZhuPartition_eq]
      exact (cutFrom_zhu hrows.stamped .idle).ordered hrows
  | unlockToLockV1 | unlockToOffOrLockV1 =>
      exact (cutFrom_direct hrows.stamped).ordered hrows

end Constructors

end Chronicle.Screens
