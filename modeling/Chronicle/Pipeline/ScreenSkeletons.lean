import Chronicle.Pipeline.Lineage
import Chronicle.Pipeline.ScreenSessions

/-!
# What the sessions are made of

A session of the canonical rows holds the data rows of its participant from its start up to its end,
and the sessions of one participant follow each other.
-/

namespace Chronicle.Pipeline

open Chronicle.Library.Loop Chronicle.Library.StableSort

/-- A canonical table of an input of `count` data rows: the rows are in the order of their times,
and no data row is in the lineage of two of them. -/
structure CanonicalTable (count : Nat) (rows : List Row) : Prop where
  ordered : rows.Pairwise fun a b => a.eventTimestampNs ≤ b.eventTimestampNs
  lineage : ∀ row ∈ rows, row.sourceDataRows.Lineage count
  disjoint : rows.Pairwise fun a b =>
    ∀ source ∈ a.sourceDataRows.iter, source ∉ b.sourceDataRows.iter

section Table

variable {count : Nat} {rows : List Row}

theorem CanonicalTable.lineage_rowAt (htable : CanonicalTable count rows) {i : Nat}
    (h : i < rows.length) : (rowAt rows i).sourceDataRows.Lineage count :=
  htable.lineage _ (rowAt_mem h)

theorem CanonicalTable.time_le (htable : CanonicalTable count rows) {i j : Nat} (hij : i ≤ j)
    (hj : j < rows.length) :
    (rowAt rows i).eventTimestampNs ≤ (rowAt rows j).eventTimestampNs := by
  rcases Nat.eq_or_lt_of_le hij with rfl | hij
  · exact le_rfl
  · rw [rowAt_eq hj, rowAt_eq (hij.trans hj)]
    exact List.pairwise_iff_getElem.mp htable.ordered i j _ hj hij

/-- A data row is in the lineage of one row only. -/
theorem CanonicalTable.eq_of_mem (htable : CanonicalTable count rows) {i j source : Nat}
    (hi : i < rows.length) (hj : j < rows.length)
    (hsource : source ∈ (rowAt rows i).sourceDataRows.iter)
    (hsource' : source ∈ (rowAt rows j).sourceDataRows.iter) : i = j := by
  rw [rowAt_eq hi] at hsource
  rw [rowAt_eq hj] at hsource'
  have hpair := List.pairwise_iff_getElem.mp htable.disjoint
  rcases Nat.lt_trichotomy i j with hlt | heq | hlt
  · exact absurd hsource' (hpair i j hi hj hlt source hsource)
  · exact heq
  · exact absurd hsource (hpair j i hj hi hlt source hsource')

end Table

/-! ## One session -/

/-- The session began at its start row and holds rows of its participant up to `last`. -/
structure Running (count : Nat) (rows : List Row) (participantId : String) (last : Nat)
    (state : ScreenState) : Prop where
  participant : (rowAt rows state.startIndex).participantId = participantId
  begun : state.startIndex ≤ last
  startNs : state.startTimestampNs = (rowAt rows state.startIndex).eventTimestampNs
  startLineage : state.startSourceDataRows.Lineage count
  ordered : state.sourceDataRows.Ordered
  startHeld : ∀ source ∈ state.startSourceDataRows.iter, source ∈ state.sourceDataRows.iter
  held : ∀ source ∈ state.sourceDataRows.iter, ∃ i, state.startIndex ≤ i ∧ i ≤ last ∧
    (rowAt rows i).participantId = participantId ∧ source ∈ (rowAt rows i).sourceDataRows.iter

/-- The session ended at the row `stop`. -/
structure Ended (count : Nat) (rows : List Row) (close : ScreenSessionClose) (stop : Nat) :
    Prop where
  running : Running count rows (close.participantId rows) stop close.state
  after : close.state.startIndex < stop
  inTable : stop < rows.length
  stopIndex : close.stopIndex = some stop
  stopNs : close.stopTimestampNs = some (rowAt rows stop).eventTimestampNs
  stopType : close.stopEventType = some (rowAt rows stop).interactionType
  stopSources : close.stopSourceDataRows = (rowAt rows stop).sourceDataRows
  stopHeld : ∀ source ∈ close.stopSourceDataRows.iter, source ∈ close.state.sourceDataRows.iter

/-- The session was still open at the end of the table. -/
structure Unended (count : Nat) (rows : List Row) (close : ScreenSessionClose) (last : Nat) :
    Prop where
  running : Running count rows (close.participantId rows) last close.state
  inTable : last < rows.length
  stopIndex : close.stopIndex = none
  stopNs : close.stopTimestampNs = none
  stopType : close.stopEventType = none
  stopSources : close.stopSourceDataRows = []

/-- Of two sessions of one participant, the first ended before the other began. -/
def EndsBefore (rows : List Row) (first second : ScreenSessionClose) : Prop :=
  first.participantId rows = second.participantId rows →
    ∃ stop, first.stopIndex = some stop ∧ stop < second.state.startIndex

section Steps

variable {count : Nat} {rows : List Row} {participantId : String} {last k : Nat}
variable {state : ScreenState}

theorem Running.opened (htable : CanonicalTable count rows) (hk : k < rows.length) :
    Running count rows (rowAt rows k).participantId k (.opened k (rowAt rows k)) where
  participant := rfl
  begun := le_rfl
  startNs := rfl
  startLineage := htable.lineage_rowAt hk
  ordered := (htable.lineage_rowAt hk).ordered
  startHeld _ hsource := hsource
  held _ hsource := ⟨k, le_rfl, le_rfl, rfl, hsource⟩

/-- A row of the participant that follows joins the session. -/
theorem Running.held_merge (h : Running count rows participantId last state)
    (htable : CanonicalTable count rows) (hlast : last < k) (hk : k < rows.length)
    (hparticipant : (rowAt rows k).participantId = participantId) (source : Nat)
    (hsource : source ∈ (state.sourceDataRows.merge (rowAt rows k).sourceDataRows).iter) :
    ∃ i, state.startIndex ≤ i ∧ i ≤ k ∧ (rowAt rows i).participantId = participantId ∧
      source ∈ (rowAt rows i).sourceDataRows.iter := by
  rcases (SourceDataRows.mem_iter_merge h.ordered (htable.lineage_rowAt hk).ordered).mp hsource with
    hsource | hsource
  · obtain ⟨i, hfrom, hto, hi, hheld⟩ := h.held source hsource
    exact ⟨i, hfrom, hto.trans hlast.le, hi, hheld⟩
  · exact ⟨k, h.begun.trans hlast.le, le_rfl, hparticipant, hsource⟩

theorem Running.mem_merge (h : Running count rows participantId last state)
    (htable : CanonicalTable count rows) (hk : k < rows.length) {source : Nat} :
    source ∈ (state.sourceDataRows.merge (rowAt rows k).sourceDataRows).iter ↔
      source ∈ state.sourceDataRows.iter ∨ source ∈ (rowAt rows k).sourceDataRows.iter :=
  SourceDataRows.mem_iter_merge h.ordered (htable.lineage_rowAt hk).ordered

theorem Running.restarted (h : Running count rows participantId last state)
    (htable : CanonicalTable count rows) (hlast : last < k) (hk : k < rows.length)
    (hparticipant : (rowAt rows k).participantId = participantId) :
    Running count rows participantId k (state.restarted (rowAt rows k)) where
  participant := h.participant
  begun := h.begun.trans hlast.le
  startNs := h.startNs
  startLineage := h.startLineage.merge (htable.lineage_rowAt hk)
  ordered := SourceDataRows.ordered_merge h.ordered (htable.lineage_rowAt hk).ordered
  startHeld source hsource := by
    refine (h.mem_merge htable hk).mpr ?_
    exact ((SourceDataRows.mem_iter_merge h.startLineage.ordered
      (htable.lineage_rowAt hk).ordered).mp hsource).imp_left (h.startHeld source)
  held := h.held_merge htable hlast hk hparticipant

theorem Running.extended (h : Running count rows participantId last state)
    (htable : CanonicalTable count rows) (hlast : last < k) (hk : k < rows.length)
    (hparticipant : (rowAt rows k).participantId = participantId) :
    Running count rows participantId k (state.extended (rowAt rows k)) where
  participant := h.participant
  begun := h.begun.trans hlast.le
  startNs := h.startNs
  startLineage := h.startLineage
  ordered := SourceDataRows.ordered_merge h.ordered (htable.lineage_rowAt hk).ordered
  startHeld source hsource := (h.mem_merge htable hk).mpr (.inl (h.startHeld source hsource))
  held := h.held_merge htable hlast hk hparticipant

theorem Running.closedBy (h : Running count rows participantId last state)
    (htable : CanonicalTable count rows) (hlast : last < k) (hk : k < rows.length)
    (hparticipant : (rowAt rows k).participantId = participantId) :
    Ended count rows ((state.extended (rowAt rows k)).closedBy k (rowAt rows k)) k where
  running := by
    have hclose : ((state.extended (rowAt rows k)).closedBy k (rowAt rows k)).participantId rows =
        participantId := h.participant
    rw [hclose]
    exact h.extended htable hlast hk hparticipant
  after := h.begun.trans_lt hlast
  inTable := hk
  stopIndex := rfl
  stopNs := rfl
  stopType := rfl
  stopSources := rfl
  stopHeld _ hsource := (h.mem_merge htable hk).mpr (.inr hsource)

end Steps

/-! ## The walk -/

/-- What holds after `k` rows. -/
structure WalkFacts (count : Nat) (rows : List Row) (k : Nat) (walk : ScreenWalk) : Prop where
  ended : ∀ close ∈ walk.closes, ∃ stop < k, Ended count rows close stop
  running : ∀ participantId state, walk.states participantId = some state →
    ∃ last < k, Running count rows participantId last state
  apart : walk.closes.Pairwise (EndsBefore rows)
  before : ∀ participantId state, walk.states participantId = some state →
    ∀ close ∈ walk.closes, close.participantId rows = participantId →
      ∃ stop, close.stopIndex = some stop ∧ stop < state.startIndex

section Walk

variable {count : Nat} {rows : List Row} {k : Nat} {walk : ScreenWalk}

/-- The sessions after that of one participant has changed. -/
theorem update_eq_some {states : String → Option ScreenState} {participantId other : String}
    {next : Option ScreenState} {state : ScreenState} :
    Function.update states participantId next other = some state ↔
      other = participantId ∧ next = some state ∨
        other ≠ participantId ∧ states other = some state := by
  by_cases h : other = participantId
  · subst h
    simp
  · simp [h]

/-- A row that ends no session: its participant's session is `next` after it. -/
theorem WalkFacts.update (h : WalkFacts count rows k walk) {participantId : String}
    {next : Option ScreenState}
    (hrunning : ∀ state, next = some state → Running count rows participantId k state)
    (hbefore : ∀ state, next = some state →
      ∀ close ∈ walk.closes, close.participantId rows = participantId →
        ∃ stop, close.stopIndex = some stop ∧ stop < state.startIndex) :
    WalkFacts count rows (k + 1)
      { states := Function.update walk.states participantId next, closes := walk.closes } where
  ended close hclose := by
    obtain ⟨stop, hstop, hended⟩ := h.ended close hclose
    exact ⟨stop, Nat.lt_succ_of_lt hstop, hended⟩
  running other state hstate := by
    rcases update_eq_some.mp hstate with ⟨rfl, hnext⟩ | ⟨_, hstate⟩
    · exact ⟨k, Nat.lt_succ_self k, hrunning state hnext⟩
    · obtain ⟨last, hlast, hrun⟩ := h.running other state hstate
      exact ⟨last, Nat.lt_succ_of_lt hlast, hrun⟩
  apart := h.apart
  before other state hstate := by
    rcases update_eq_some.mp hstate with ⟨rfl, hnext⟩ | ⟨_, hstate⟩
    · exact hbefore state hnext
    · exact h.before other state hstate

/-- A row that ends the session of its participant. -/
theorem WalkFacts.close (h : WalkFacts count rows k walk) {participantId : String}
    {close : ScreenSessionClose} (hended : Ended count rows close k)
    (hparticipant : close.participantId rows = participantId)
    (hbefore : ∀ earlier ∈ walk.closes, earlier.participantId rows = participantId →
      ∃ stop, earlier.stopIndex = some stop ∧ stop < close.state.startIndex) :
    WalkFacts count rows (k + 1)
      { states := Function.update walk.states participantId none
        closes := walk.closes ++ [close] } where
  ended other hother := by
    rcases List.mem_append.mp hother with hother | hother
    · obtain ⟨stop, hstop, hended⟩ := h.ended other hother
      exact ⟨stop, Nat.lt_succ_of_lt hstop, hended⟩
    · rw [List.mem_singleton.mp hother]
      exact ⟨k, Nat.lt_succ_self k, hended⟩
  running other state hstate := by
    rcases update_eq_some.mp hstate with ⟨_, hstate⟩ | ⟨_, hstate⟩
    · cases hstate
    · obtain ⟨last, hlast, hrun⟩ := h.running other state hstate
      exact ⟨last, Nat.lt_succ_of_lt hlast, hrun⟩
  apart := by
    refine List.pairwise_append.mpr ⟨h.apart, List.pairwise_singleton _ _, ?_⟩
    intro earlier hearlier other hother hsame
    rw [List.mem_singleton.mp hother] at hsame ⊢
    exact hbefore earlier hearlier (hsame.trans hparticipant)
  before other state hstate := by
    rcases update_eq_some.mp hstate with ⟨_, hstate⟩ | ⟨hother, hstate⟩
    · cases hstate
    · intro earlier hearlier hearlier'
      rcases List.mem_append.mp hearlier with hearlier | hearlier
      · exact h.before other state hstate earlier hearlier hearlier'
      · rw [List.mem_singleton.mp hearlier] at hearlier'
        exact absurd (hearlier'.symm.trans hparticipant) hother

theorem screenStep_eq (rows : List Row) (walk : ScreenWalk) (k : Nat)
    {current : Option ScreenState} (hcurrent : walk.states (rowAt rows k).participantId = current) :
    screenStep rows walk k =
      { states := Function.update walk.states (rowAt rows k).participantId
          (screenRowStep k (rowAt rows k) current).1
        closes := walk.closes ++ (screenRowStep k (rowAt rows k) current).2.toList } := by
  subst hcurrent
  rfl

theorem WalkFacts.screenStep (h : WalkFacts count rows k walk) (htable : CanonicalTable count rows)
    (hk : k < rows.length) : WalkFacts count rows (k + 1) (screenStep rows walk k) := by
  cases hcurrent : walk.states (rowAt rows k).participantId with
  | none =>
      rw [screenStep_eq rows walk k hcurrent]
      simp only [screenRowStep, Option.toList_none, List.append_nil]
      refine h.update (fun state hstate => ?_) fun state hstate close hclose _ => ?_
      · rw [Option.ite_none_right_eq_some] at hstate
        cases hstate.2
        exact .opened htable hk
      · rw [Option.ite_none_right_eq_some] at hstate
        cases hstate.2
        obtain ⟨stop, hstop, hended⟩ := h.ended close hclose
        exact ⟨stop, hended.stopIndex, hstop⟩
  | some state =>
      obtain ⟨last, hlast, hrun⟩ := h.running _ state hcurrent
      have hbefore := h.before _ state hcurrent
      rw [screenStep_eq rows walk k hcurrent, screenRowStep]
      split
      case isTrue =>
        rw [Option.toList_none, List.append_nil]
        refine h.update (fun state' hstate => ?_) fun state' hstate => ?_
        · cases hstate
          exact hrun.restarted htable hlast hk rfl
        · cases hstate
          exact hbefore
      case isFalse =>
        split
        case isTrue =>
          exact h.close (hrun.closedBy htable hlast hk rfl) hrun.participant hbefore
        case isFalse =>
          rw [Option.toList_none, List.append_nil]
          refine h.update (fun state' hstate => ?_) fun state' hstate => ?_
          · cases hstate
            exact hrun.extended htable hlast hk rfl
          · cases hstate
            exact hbefore

theorem walkFacts_screenWalk (htable : CanonicalTable count rows) :
    WalkFacts count rows rows.length (screenWalk rows) := by
  refine foldl_range_induction ⟨?_, ?_, .nil, ?_⟩ fun k walk hk h => h.screenStep htable hk
  · intro close hclose
    exact absurd hclose List.not_mem_nil
  · intro participantId state hstate
    cases hstate
  · intro participantId state hstate
    cases hstate

end Walk

/-! ## All sessions -/

section Skeletons

variable {count : Nat} {rows : List Row} {close first second : ScreenSessionClose}

theorem mem_openSessions :
    close ∈ openSessions rows ↔ ∃ participantId ∈ rows.map (·.participantId), ∃ state,
      (screenWalk rows).states participantId = some state ∧ close = { state } := by
  simp [openSessions, eq_comm]

theorem unended_of_mem_openSessions (htable : CanonicalTable count rows)
    (h : close ∈ openSessions rows) : ∃ last, Unended count rows close last := by
  obtain ⟨participantId, _, state, hstate, rfl⟩ := mem_openSessions.mp h
  obtain ⟨last, hlast, hrun⟩ := (walkFacts_screenWalk htable).running participantId state hstate
  refine ⟨last, ?_, hlast, rfl, rfl, rfl, rfl⟩
  have hparticipant : ({ state } : ScreenSessionClose).participantId rows = participantId :=
    hrun.participant
  rw [hparticipant]
  exact hrun

/-- Every session either ended at a row or was still open. -/
theorem ended_or_unended (htable : CanonicalTable count rows)
    (h : close ∈ inferScreenSessionSkeletons rows) :
    (∃ stop, Ended count rows close stop) ∨ ∃ last, Unended count rows close last := by
  rcases List.mem_append.mp (mem_sortByKey.mp h) with h | h
  · obtain ⟨stop, _, hended⟩ := (walkFacts_screenWalk htable).ended close h
    exact .inl ⟨stop, hended⟩
  · exact .inr (unended_of_mem_openSessions htable h)

theorem running_of_mem (htable : CanonicalTable count rows)
    (h : close ∈ inferScreenSessionSkeletons rows) :
    ∃ last < rows.length, Running count rows (close.participantId rows) last close.state := by
  rcases ended_or_unended htable h with ⟨stop, hended⟩ | ⟨last, hunended⟩
  · exact ⟨stop, hended.inTable, hended.running⟩
  · exact ⟨last, hunended.inTable, hunended.running⟩

/-- Two participants have no session that is open in common. -/
theorem pairwise_openSessions (htable : CanonicalTable count rows) :
    (openSessions rows).Pairwise fun a b => a.participantId rows ≠ b.participantId rows := by
  refine List.Pairwise.filterMap _ (R := (· ≠ ·)) ?_ (List.nodup_dedup _)
  intro participantId other hne close hclose close' hclose'
  obtain ⟨state, hstate, rfl⟩ := Option.map_eq_some_iff.mp hclose
  obtain ⟨state', hstate', rfl⟩ := Option.map_eq_some_iff.mp hclose'
  obtain ⟨_, _, hrun⟩ := (walkFacts_screenWalk htable).running participantId state hstate
  obtain ⟨_, _, hrun'⟩ := (walkFacts_screenWalk htable).running other state' hstate'
  intro hsame
  exact hne (hrun.participant.symm.trans (hsame.trans hrun'.participant))

theorem pairwise_unsorted (htable : CanonicalTable count rows) :
    ((screenWalk rows).closes ++ openSessions rows).Pairwise (EndsBefore rows) := by
  have hwalk := walkFacts_screenWalk htable
  refine List.pairwise_append.mpr ⟨hwalk.apart, ?_, ?_⟩
  · exact (pairwise_openSessions htable).imp fun hne hsame => absurd hsame hne
  · intro ended hended other hother hsame
    obtain ⟨participantId, _, state, hstate, rfl⟩ := mem_openSessions.mp hother
    obtain ⟨_, _, hrun⟩ := hwalk.running participantId state hstate
    exact hwalk.before participantId state hstate ended hended (hsame.trans hrun.participant)

/-- Of two sessions in their order, the second one does not end before the first one begins. -/
theorem endsBefore_of_key_le (htable : CanonicalTable count rows)
    (hfirst : first ∈ inferScreenSessionSkeletons rows)
    (hsecond : second ∈ inferScreenSessionSkeletons rows)
    (hkey : first.key rows ≤ second.key rows)
    (h : EndsBefore rows first second ∨ EndsBefore rows second first) :
    EndsBefore rows first second := by
  rcases h with h | h
  · exact h
  · intro hsame
    obtain ⟨stop, hstop, hlt⟩ := h hsame.symm
    obtain ⟨_, hlast, hrun⟩ := running_of_mem htable hfirst
    rcases ended_or_unended htable hsecond with ⟨stop', hended⟩ | ⟨_, hunended⟩
    · cases hstop.symm.trans hended.stopIndex
      have hindex : second.state.startIndex < first.state.startIndex := hended.after.trans hlt
      have htime := htable.time_le hindex.le (hrun.begun.trans_lt hlast)
      rw [← hrun.startNs, ← hended.running.startNs] at htime
      rw [ScreenSessionClose.key, ScreenSessionClose.key, hsame] at hkey
      simp only [Prod.Lex.toLex_le_toLex, lt_irrefl, true_and, false_or] at hkey
      omega
    · cases hstop.symm.trans hunended.stopIndex

/-- The sessions stand in the order in which those of one participant follow each other. -/
theorem pairwise_endsBefore (htable : CanonicalTable count rows) :
    (inferScreenSessionSkeletons rows).Pairwise (EndsBefore rows) := by
  have hperm := perm_sortByKey (ScreenSessionClose.key rows)
    ((screenWalk rows).closes ++ openSessions rows)
  have heither : (inferScreenSessionSkeletons rows).Pairwise fun a b =>
      EndsBefore rows a b ∨ EndsBefore rows b a :=
    (List.Perm.pairwise_iff (fun h => h.symm) hperm).mpr ((pairwise_unsorted htable).imp .inl)
  have hboth := heither.and (pairwise_sortByKey (ScreenSessionClose.key rows)
    ((screenWalk rows).closes ++ openSessions rows))
  exact hboth.imp_of_mem fun hfirst hsecond h =>
    endsBefore_of_key_le htable hfirst hsecond h.2 h.1

/-- No data row is in two sessions. -/
theorem pairwise_disjoint_sources (htable : CanonicalTable count rows) :
    (inferScreenSessionSkeletons rows).Pairwise fun a b =>
      ∀ source ∈ a.state.sourceDataRows.iter, source ∉ b.state.sourceDataRows.iter := by
  refine (pairwise_endsBefore htable).imp_of_mem fun {a b} ha hb h source hsource hsource' => ?_
  obtain ⟨last', hlast', hrun'⟩ := running_of_mem htable hb
  obtain ⟨j, hfrom', hto', hparticipant', hheld'⟩ := hrun'.held source hsource'
  have hj : j < rows.length := hto'.trans_lt hlast'
  rcases ended_or_unended htable ha with ⟨stop, hended⟩ | ⟨last, hunended⟩
  · obtain ⟨i, _, hto, hparticipant, hheld⟩ := hended.running.held source hsource
    obtain rfl := htable.eq_of_mem (hto.trans_lt hended.inTable) hj hheld hheld'
    obtain ⟨stop', hstop', hlt⟩ := h (hparticipant.symm.trans hparticipant')
    cases hstop'.symm.trans hended.stopIndex
    omega
  · obtain ⟨i, _, hto, hparticipant, hheld⟩ := hunended.running.held source hsource
    obtain rfl := htable.eq_of_mem (hto.trans_lt hunended.inTable) hj hheld hheld'
    obtain ⟨_, hstop', _⟩ := h (hparticipant.symm.trans hparticipant')
    cases hstop'.symm.trans hunended.stopIndex

/-- A session does not stop before it starts. -/
theorem Ended.start_le_stop (htable : CanonicalTable count rows) {stop : Nat}
    (h : Ended count rows close stop) :
    close.state.startTimestampNs ≤ (rowAt rows stop).eventTimestampNs :=
  h.running.startNs ▸ htable.time_le h.after.le h.inTable

end Skeletons

end Chronicle.Pipeline
