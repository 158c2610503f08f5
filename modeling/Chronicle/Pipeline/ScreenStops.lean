import Chronicle.Library.Selection
import Chronicle.Pipeline.ScreenIntervals

/-!
# Stops with and without a session

Two loops walk the same rows: one cuts them into sessions, the other lists the stops that end none.
The sessions of one participant are those of its own rows alone, they follow one another, and the two
loops agree on every stop.
-/

namespace Chronicle.Pipeline

open Chronicle.Credit Chronicle.Library Chronicle.Library.Loop Chronicle.Library.StableSort
open Chronicle.Screens

/-- Of two sessions, the first one ended before the other began. -/
def ScreenSessionClose.Precedes (first second : ScreenSessionClose) : Prop :=
  ∃ stop, first.stopIndex = some stop ∧ stop < second.state.startIndex

/-- The sessions share no row, whichever of them is the earlier one. -/
def ScreenSessionClose.Apart (first second : ScreenSessionClose) : Prop :=
  first.Precedes second ∨ second.Precedes first

/-- The rows that end a session. -/
def sessionStops (sessions : List ScreenSessionClose) : List Nat :=
  sessions.filterMap ScreenSessionClose.stopIndex

/-- What is reported of a stop without a session: nothing if it has no data rows. -/
def orphanIssue (rows : List Row) (index : Nat) : Option ScreenConstructionIssue :=
  (rowAt rows index).sourceDataRows.iter.head?.map fun source =>
    issue (rowAt rows index).participantId source .chronicleOrphanStop

/-- The row belongs to the participant. -/
def Row.ofParticipant (participantId : String) (row : Row) : Bool :=
  row.participantId == participantId

/-- A row of the participant's own table, mapped back to the whole table. -/
def tablePlace (rows : List Row) (participantId : String) (index : Nat) : Nat :=
  Selection.placeOf (Row.ofParticipant participantId) rows index

def ScreenState.mapIndex (f : Nat → Nat) (state : ScreenState) : ScreenState :=
  { state with startIndex := f state.startIndex }

def ScreenSessionClose.mapIndex (f : Nat → Nat) (close : ScreenSessionClose) :
    ScreenSessionClose :=
  { close with state := close.state.mapIndex f, stopIndex := close.stopIndex.map f }

theorem not_startsScreen_of_stopsScreen {row : Row} (h : row.stopsScreen = true) :
    row.startsScreen = false := by
  have hnone : ∀ event ∈ screenStopEvents, event ∉ screenStartEvents := by decide
  simpa [Row.startsScreen] using hnone _ (of_decide_eq_true h)

/-! ## The walk of one participant -/

/-- A row of the participant, its session and the sessions it has ended. -/
def ownStep (rows : List Row) (own : Option ScreenState × List ScreenSessionClose) (index : Nat) :
    Option ScreenState × List ScreenSessionClose :=
  ((screenRowStep index (rowAt rows index) own.1).1,
    own.2 ++ (screenRowStep index (rowAt rows index) own.1).2.toList)

/-- What holds when the rows before `bound` have been walked. -/
structure OwnFacts (bound : Nat) (own : Option ScreenState × List ScreenSessionClose) : Prop where
  running : ∀ state ∈ own.1, state.startIndex < bound
  ended : ∀ close ∈ own.2, ∃ stop < bound, close.stopIndex = some stop ∧
    close.state.startIndex < stop
  apart : own.2.Pairwise ScreenSessionClose.Precedes
  before : ∀ state ∈ own.1, ∀ close ∈ own.2, ∃ stop, close.stopIndex = some stop ∧
    stop < state.startIndex

section Own

variable {rows : List Row} {bound k : Nat} {own : Option ScreenState × List ScreenSessionClose}

theorem OwnFacts.keep (h : OwnFacts bound own) (hk : bound ≤ k) {state next : ScreenState}
    (hstate : own.1 = some state) (hnext : next.startIndex = state.startIndex) :
    OwnFacts (k + 1) (some next, own.2) where
  running other hother := by
    obtain rfl := Option.some.inj hother
    have := h.running state hstate
    omega
  ended close hclose := by
    obtain ⟨stop, hstop, hended⟩ := h.ended close hclose
    exact ⟨stop, by omega, hended⟩
  apart := h.apart
  before other hother close hclose := by
    obtain rfl := Option.some.inj hother
    rw [hnext]
    exact h.before state hstate close hclose

theorem OwnFacts.step (h : OwnFacts bound own) (hk : bound ≤ k) :
    OwnFacts (k + 1) (ownStep rows own k) := by
  have hlater : ∀ close ∈ own.2, ∃ stop < k + 1, close.stopIndex = some stop ∧
      close.state.startIndex < stop := by
    intro close hclose
    obtain ⟨stop, hstop, hended⟩ := h.ended close hclose
    exact ⟨stop, by omega, hended⟩
  unfold ownStep
  cases hcurrent : own.1 with
  | none =>
      simp only [screenRowStep, Option.toList_none, List.append_nil]
      split
      · refine ⟨fun state hstate => ?_, hlater, h.apart, fun state hstate close hclose => ?_⟩
        all_goals obtain rfl := Option.some.inj hstate
        · exact Nat.lt_succ_self k
        · obtain ⟨stop, hstop, hindex, -⟩ := h.ended close hclose
          exact ⟨stop, hindex, hstop.trans_le hk⟩
      · exact ⟨by simp, hlater, h.apart, by simp⟩
  | some state =>
      rw [screenRowStep]
      split
      · rw [Option.toList_none, List.append_nil]
        exact h.keep hk hcurrent rfl
      · split
        · have hstart : state.startIndex < k := (h.running state hcurrent).trans_le hk
          refine ⟨by simp, fun close hclose => ?_, ?_, by simp⟩
          · rcases List.mem_append.mp hclose with hclose | hclose
            · exact hlater close hclose
            · rw [List.mem_singleton.mp hclose]
              exact ⟨k, Nat.lt_succ_self k, rfl, hstart⟩
          · refine List.pairwise_append.mpr ⟨h.apart, List.pairwise_singleton _ _, ?_⟩
            intro earlier hearlier other hother
            rw [List.mem_singleton.mp hother]
            exact h.before state hcurrent earlier hearlier
        · rw [Option.toList_none, List.append_nil]
          exact h.keep hk hcurrent rfl

theorem OwnFacts.mono (h : OwnFacts bound own) (hk : bound ≤ k) : OwnFacts k own where
  running state hstate := (h.running state hstate).trans_le hk
  ended close hclose := by
    obtain ⟨stop, hstop, hended⟩ := h.ended close hclose
    exact ⟨stop, hstop.trans_le hk, hended⟩
  apart := h.apart
  before := h.before

/-- The walk over ascending rows. -/
theorem OwnFacts.walk {indices : List Nat} {count : Nat} (h : OwnFacts bound own)
    (hindices : indices.Pairwise (· < ·)) (hfrom : ∀ k ∈ indices, bound ≤ k)
    (hto : ∀ k ∈ indices, k < count) (hbound : bound ≤ count) :
    OwnFacts count (indices.foldl (ownStep rows) own) := by
  induction indices generalizing bound own with
  | nil => exact h.mono hbound
  | cons k indices ih =>
      obtain ⟨hfirst, hrest⟩ := List.pairwise_cons.mp hindices
      exact ih (h.step (hfrom k List.mem_cons_self)) hrest hfirst
        (fun k' hk' => hto k' (List.mem_cons_of_mem _ hk')) (hto k List.mem_cons_self)

end Own

/-! ## The walk of all participants, seen by one -/

/-- Every open session began at a row of its participant. -/
def Owned (rows : List Row) (walk : ScreenWalk) : Prop :=
  ∀ participantId state, walk.states participantId = some state →
    (rowAt rows state.startIndex).participantId = participantId

/-- What one participant sees of the walk. -/
def ownPart (rows : List Row) (participantId : String) (walk : ScreenWalk) :
    Option ScreenState × List ScreenSessionClose :=
  (walk.states participantId,
    walk.closes.filter fun close => close.participantId rows = participantId)

section Part

variable {rows : List Row} {participantId : String} {walk : ScreenWalk} {k : Nat}

/-- A row begins a session, or goes on with the one that is open. -/
theorem startIndex_of_screenRowStep {row : Row} {current : Option ScreenState} :
    (∀ next ∈ (screenRowStep k row current).1, next.startIndex = k ∨
      ∃ state ∈ current, next.startIndex = state.startIndex) ∧
    ∀ close ∈ (screenRowStep k row current).2,
      ∃ state ∈ current, close.state.startIndex = state.startIndex := by
  cases current with
  | none =>
      refine ⟨fun next hnext => ?_, by simp [screenRowStep]⟩
      simp only [screenRowStep, Option.mem_def, Option.ite_none_right_eq_some] at hnext
      obtain rfl := Option.some.inj hnext.2
      exact .inl rfl
  | some state =>
      rw [screenRowStep]
      split
      · refine ⟨fun next hnext => ?_, by simp⟩
        obtain rfl := Option.some.inj hnext
        exact .inr ⟨state, rfl, rfl⟩
      · split
        · refine ⟨by simp, fun close hclose => ?_⟩
          obtain rfl := Option.some.inj hclose
          exact ⟨state, rfl, rfl⟩
        · refine ⟨fun next hnext => ?_, by simp⟩
          obtain rfl := Option.some.inj hnext
          exact .inr ⟨state, rfl, rfl⟩

theorem Owned.screenStep (h : Owned rows walk) (k : Nat) :
    Owned rows (screenStep rows walk k) := by
  intro participantId state hstate
  rcases update_eq_some.mp hstate with ⟨rfl, hnext⟩ | ⟨-, hkept⟩
  · rcases startIndex_of_screenRowStep.1 state hnext with hstart | ⟨earlier, hearlier, hstart⟩
    · rw [hstart]
    · rw [hstart]
      exact h _ earlier hearlier
  · exact h participantId state hkept

/-- A row is a step of its own participant and no step of another one. -/
theorem Owned.ownPart_screenStep (h : Owned rows walk) (participantId : String) (k : Nat) :
    ownPart rows participantId (Pipeline.screenStep rows walk k) =
      if (rowAt rows k).participantId = participantId then
        ownStep rows (ownPart rows participantId walk) k
      else ownPart rows participantId walk := by
  have hcloses : ∀ close ∈ (screenRowStep k (rowAt rows k)
      (walk.states (rowAt rows k).participantId)).2.toList,
      close.participantId rows = (rowAt rows k).participantId := by
    intro close hclose
    obtain ⟨state, hstate, hstart⟩ :=
      startIndex_of_screenRowStep.2 close (Option.mem_toList.mp hclose)
    rw [ScreenSessionClose.participantId, hstart]
    exact h _ state hstate
  unfold ownPart ownStep
  simp only [Pipeline.screenStep, List.filter_append]
  split
  · rename_i hsame
    subst hsame
    rw [Function.update_self]
    congr 2
    exact List.filter_eq_self.mpr fun close hclose => decide_eq_true (hcloses close hclose)
  · rename_i hother
    rw [Function.update_of_ne (Ne.symm hother)]
    have hnone := List.filter_eq_nil_iff.mpr fun close hclose hsame =>
      hother ((hcloses close hclose).symm.trans (of_decide_eq_true hsame))
    rw [hnone, List.append_nil]

/-- The walk over some rows, seen by one participant, is its walk over its own ones. -/
theorem Owned.ownPart_foldl (h : Owned rows walk) (participantId : String) (indices : List Nat) :
    Owned rows (indices.foldl (Pipeline.screenStep rows) walk) ∧
      ownPart rows participantId (indices.foldl (Pipeline.screenStep rows) walk) =
        (indices.filter fun k => (rowAt rows k).participantId = participantId).foldl
          (ownStep rows) (ownPart rows participantId walk) := by
  induction indices generalizing walk with
  | nil => exact ⟨h, rfl⟩
  | cons k indices ih =>
      obtain ⟨howned, hpart⟩ := ih (h.screenStep k)
      refine ⟨howned, ?_⟩
      rw [List.foldl_cons, hpart, h.ownPart_screenStep, List.filter_cons]
      split
      · rename_i hsame
        simp [hsame]
      · rename_i hother
        simp [hother]

end Part

/-! ## The rows of one participant alone -/

section Alone

variable {rows : List Row} {participantId : String}

/-- The participant's own rows. -/
def rowsOf (rows : List Row) (participantId : String) : List Row :=
  rows.filter (Row.ofParticipant participantId)

/-- The participant's places in the table, ascending. -/
def ownPlaces (rows : List Row) (participantId : String) : List Nat :=
  Selection.places (Row.ofParticipant participantId) rows

theorem filter_range_eq_ownPlaces (rows : List Row) (participantId : String) :
    ((List.range rows.length).filter fun k => (rowAt rows k).participantId = participantId) =
      ownPlaces rows participantId := by
  have hzip : rows.zipIdx.map Prod.snd = List.range rows.length := by
    rw [List.zipIdx_map_snd, List.range_eq_range']
  rw [ownPlaces, Selection.places, ← hzip, List.filter_map]
  congr 1
  refine List.filter_congr fun entry hentry => ?_
  have hrow := List.mk_mem_zipIdx_iff_getElem?.mp hentry
  simp only [Function.comp_apply, rowAt, List.getD_eq_getElem?_getD, hrow, Option.getD_some,
    Row.ofParticipant]
  exact (Bool.beq_eq_decide_eq _ _).symm

theorem ownPlaces_eq_map (rows : List Row) (participantId : String) :
    ownPlaces rows participantId =
      (List.range (rowsOf rows participantId).length).map (tablePlace rows participantId) := by
  refine List.ext_getElem (by simp [ownPlaces, rowsOf, Selection.length_places]) fun n h _ => ?_
  rw [ownPlaces] at h
  simp [tablePlace, Selection.placeOf, ownPlaces, h]

theorem rowAt_tablePlace {k : Nat} (h : k < (rowsOf rows participantId).length) :
    rowAt rows (tablePlace rows participantId k) = rowAt (rowsOf rows participantId) k := by
  rw [rowAt, rowAt, List.getD_eq_getElem?_getD, List.getD_eq_getElem?_getD, tablePlace,
    Selection.getElem_placeOf h, rowsOf]

/-- Mapping places back keeps their order. -/
theorem tablePlace_lt {j k : Nat} (hjk : j < k) (h : k < (rowsOf rows participantId).length) :
    tablePlace rows participantId j < tablePlace rows participantId k := by
  have hincreasing := Selection.places_increasing (Row.ofParticipant participantId) rows
  have hplaces := ownPlaces_eq_map rows participantId
  rw [ownPlaces] at hplaces
  rw [hplaces, List.pairwise_map, List.pairwise_iff_getElem] at hincreasing
  have hlt := hincreasing j k (by rw [List.length_range]; exact hjk.trans h)
    (by rw [List.length_range]; exact h) hjk
  rwa [List.getElem_range, List.getElem_range] at hlt

theorem screenRowStep_mapIndex (f : Nat → Nat) (k : Nat) (row : Row)
    (current : Option ScreenState) :
    screenRowStep (f k) row (current.map (ScreenState.mapIndex f)) =
      ((screenRowStep k row current).1.map (ScreenState.mapIndex f),
        (screenRowStep k row current).2.map (ScreenSessionClose.mapIndex f)) := by
  cases current with
  | none =>
      simp only [screenRowStep, Option.map_none]
      split
      · rfl
      · rfl
  | some state =>
      simp only [screenRowStep, Option.map_some]
      split
      · rfl
      · split
        · rfl
        · rfl

/-- The walk over the participant's rows in the table is the walk over its rows alone. -/
theorem foldl_ownStep_tablePlace (indices : List Nat)
    (hindices : ∀ k ∈ indices, k < (rowsOf rows participantId).length)
    (own : Option ScreenState × List ScreenSessionClose) :
    (indices.map (tablePlace rows participantId)).foldl (ownStep rows)
        (own.1.map (ScreenState.mapIndex (tablePlace rows participantId)),
          own.2.map (ScreenSessionClose.mapIndex (tablePlace rows participantId))) =
      ((indices.foldl (ownStep (rowsOf rows participantId)) own).1.map
          (ScreenState.mapIndex (tablePlace rows participantId)),
        (indices.foldl (ownStep (rowsOf rows participantId)) own).2.map
          (ScreenSessionClose.mapIndex (tablePlace rows participantId))) := by
  induction indices generalizing own with
  | nil => rfl
  | cons k indices ih =>
      rw [List.map_cons, List.foldl_cons, List.foldl_cons,
        ← ih (fun k' hk' => hindices k' (List.mem_cons_of_mem _ hk'))]
      congr 1
      simp only [ownStep, rowAt_tablePlace (hindices k List.mem_cons_self),
        screenRowStep_mapIndex, List.map_append]
      congr 2
      cases (screenRowStep k (rowAt (rowsOf rows participantId) k) own.1).2 <;> rfl

end Alone

/-! ## The sessions of one participant -/

/-- The sessions that a walk has cut, the open one last. -/
def cutSessions (own : Option ScreenState × List ScreenSessionClose) : List ScreenSessionClose :=
  own.2 ++ (own.1.map fun state => ({ state } : ScreenSessionClose)).toList

/-- The walk over the rows of one participant. -/
def ownWalk (rows : List Row) (participantId : String) :
    Option ScreenState × List ScreenSessionClose :=
  (ownPlaces rows participantId).foldl (ownStep rows) (none, [])

section Sessions

variable {rows : List Row} {participantId : String}

/-- Before the first row no session is open. -/
theorem owned_start (rows : List Row) : Owned rows {} := by
  intro _ _ hstate
  cases hstate

theorem owned_screenWalk (rows : List Row) : Owned rows (screenWalk rows) :=
  ((owned_start rows).ownPart_foldl "" _).1

theorem ownPart_screenWalk (rows : List Row) (participantId : String) :
    ownPart rows participantId (screenWalk rows) = ownWalk rows participantId := by
  rw [ownWalk, ← filter_range_eq_ownPlaces]
  exact ((owned_start rows).ownPart_foldl participantId _).2

/-- The open sessions of one participant. -/
theorem filter_openSessions :
    ((openSessions rows).filter fun close => close.participantId rows = participantId) =
      (((screenWalk rows).states participantId).map fun state => { state }).toList := by
  have howned := owned_screenWalk rows
  have hgroup : (openSessions rows).filter (fun close => close.participantId rows = participantId) =
      ((rows.map (·.participantId)).dedup.filter (· = participantId)).filterMap fun other =>
        ((screenWalk rows).states other).map fun state => ({ state } : ScreenSessionClose) := by
    rw [openSessions, List.filter_filterMap, List.filterMap_filter]
    refine List.filterMap_congr fun other _ => ?_
    cases hstate : (screenWalk rows).states other with
    | none => simp
    | some state =>
        have hother := howned other state hstate
        simp [ScreenSessionClose.participantId, Option.filter, hother, eq_comm]
  rw [hgroup]
  by_cases hmem : participantId ∈ (rows.map (·.participantId)).dedup
  · rw [List.filter_eq, List.count_eq_one_of_mem (List.nodup_dedup _) hmem, List.replicate_one,
      List.filterMap_cons, List.filterMap_nil]
    cases (screenWalk rows).states participantId <;> rfl
  · have hnone : (screenWalk rows).states participantId = none := by
      have hown : rowsOf rows participantId = [] := by
        refine List.filter_eq_nil_iff.mpr fun row hrow hsame => hmem ?_
        exact List.mem_dedup.mpr (List.mem_map.mpr ⟨row, hrow, eq_of_beq hsame⟩)
      have hpart := congrArg Prod.fst (ownPart_screenWalk rows participantId)
      rwa [ownWalk, ownPlaces_eq_map, hown] at hpart
    rw [hnone, List.filter_eq_nil_iff.mpr fun other hother heq =>
      hmem ((of_decide_eq_true heq : other = participantId) ▸ hother)]
    rfl

/-- The sessions of one participant, before the table's sessions are sorted. -/
theorem filter_unsorted (rows : List Row) (participantId : String) :
    (((screenWalk rows).closes ++ openSessions rows).filter fun close =>
        close.participantId rows = participantId) =
      cutSessions (ownWalk rows participantId) := by
  rw [List.filter_append, filter_openSessions, cutSessions, ← ownPart_screenWalk]
  rfl

/-- The sessions of one participant are those of its own walk. -/
theorem filter_inferScreenSessionSkeletons (rows : List Row) (participantId : String) :
    ((inferScreenSessionSkeletons rows).filter fun close =>
        close.participantId rows = participantId) =
      sortByKey (ScreenSessionClose.key rows) (cutSessions (ownWalk rows participantId)) := by
  rw [inferScreenSessionSkeletons, filter_sortByKey_eq, filter_unsorted]

theorem ownFacts_ownWalk (rows : List Row) (participantId : String) :
    OwnFacts rows.length (ownWalk rows participantId) := by
  have hstart : OwnFacts 0 (none, []) := ⟨by simp, by simp, .nil, by simp⟩
  refine hstart.walk (Selection.places_increasing _ _) (fun _ _ => Nat.zero_le _) (fun k hk => ?_)
    (Nat.zero_le _)
  rw [← filter_range_eq_ownPlaces] at hk
  exact List.mem_range.mp (List.mem_of_mem_filter hk)

theorem pairwise_cutSessions {bound : Nat} {own : Option ScreenState × List ScreenSessionClose}
    (h : OwnFacts bound own) : (cutSessions own).Pairwise ScreenSessionClose.Precedes := by
  refine List.pairwise_append.mpr ⟨h.apart, ?_, fun close hclose other hother => ?_⟩
  · cases own.1 with
    | none => exact .nil
    | some state => exact List.pairwise_singleton _ _
  · obtain ⟨state, hstate, rfl⟩ := Option.map_eq_some_iff.mp (Option.mem_toList.mp hother)
    exact h.before state hstate close hclose

theorem startIndex_lt_of_mem_cutSessions {bound : Nat}
    {own : Option ScreenState × List ScreenSessionClose} (h : OwnFacts bound own)
    {close : ScreenSessionClose} (hclose : close ∈ cutSessions own) :
    close.state.startIndex < bound ∧ ∀ stop ∈ close.stopIndex, close.state.startIndex < stop := by
  rcases List.mem_append.mp hclose with hclose | hclose
  · obtain ⟨stop, hstop, hindex, hstart⟩ := h.ended close hclose
    refine ⟨hstart.trans hstop, fun other hother => ?_⟩
    obtain rfl := Option.some.inj (hindex.symm.trans hother)
    exact hstart
  · obtain ⟨state, hstate, rfl⟩ := Option.map_eq_some_iff.mp (Option.mem_toList.mp hclose)
    exact ⟨h.running state hstate, by simp⟩

instance : Std.Symm ScreenSessionClose.Apart := ⟨fun _ _ => Or.symm⟩

/-- The sessions of one participant share no row. -/
theorem pairwise_apart (rows : List Row) (participantId : String) :
    ((inferScreenSessionSkeletons rows).filter fun close =>
        close.participantId rows = participantId).Pairwise ScreenSessionClose.Apart := by
  rw [filter_inferScreenSessionSkeletons]
  refine (List.Perm.pairwise_iff Or.symm (perm_sortByKey _ _)).mpr ?_
  exact (pairwise_cutSessions (ownFacts_ownWalk rows participantId)).imp .inl

/-- Two open sessions would not be apart. -/
theorem countP_open_le_one {sessions : List ScreenSessionClose}
    (h : sessions.Pairwise ScreenSessionClose.Apart) :
    sessions.countP (fun close => close.stopIndex.isNone) ≤ 1 := by
  have hopen := h.filter fun close => close.stopIndex.isNone
  have hnone : ∀ close ∈ sessions.filter fun close => close.stopIndex.isNone,
      ∀ other, ¬ close.Precedes other := by
    rintro close hclose other ⟨stop, hstop, -⟩
    have hnone := (List.mem_filter.mp hclose).2
    rw [hstop] at hnone
    cases hnone
  rw [List.countP_eq_length_filter]
  generalize sessions.filter (fun close => close.stopIndex.isNone) = opened at hopen hnone ⊢
  rcases opened with _ | ⟨first, _ | ⟨second, later⟩⟩
  · exact Nat.zero_le 1
  · exact le_rfl
  · rcases (List.pairwise_cons.mp hopen).1 second List.mem_cons_self with h | h
    · exact absurd h (hnone first List.mem_cons_self second)
    · exact absurd h (hnone second (List.mem_cons_of_mem _ List.mem_cons_self) first)

theorem mem_cutSessions_of_mem {close : ScreenSessionClose}
    (h : close ∈ inferScreenSessionSkeletons rows) :
    close ∈ cutSessions (ownWalk rows (close.participantId rows)) := by
  have hfilter : close ∈ (inferScreenSessionSkeletons rows).filter fun other =>
      other.participantId rows = close.participantId rows :=
    List.mem_filter.mpr ⟨h, decide_eq_true rfl⟩
  rwa [filter_inferScreenSessionSkeletons, mem_sortByKey] at hfilter

theorem start_lt_stop {close : ScreenSessionClose} (h : close ∈ inferScreenSessionSkeletons rows) :
    ∀ stop ∈ close.stopIndex, close.state.startIndex < stop :=
  (startIndex_lt_of_mem_cutSessions (ownFacts_ownWalk rows _) (mem_cutSessions_of_mem h)).2

/-! ## The same sessions without the other participants -/

theorem rowsOf_rowsOf (rows : List Row) (participantId : String) :
    rowsOf (rowsOf rows participantId) participantId = rowsOf rows participantId := by
  simp [rowsOf]

theorem rowsOf_rowsOf_of_ne {other : String} (h : other ≠ participantId) :
    rowsOf (rowsOf rows participantId) other = [] := by
  refine List.filter_eq_nil_iff.mpr fun row hrow hsame => h ?_
  exact (eq_of_beq hsame).symm.trans (eq_of_beq (List.mem_filter.mp hrow).2)

theorem tablePlace_rowsOf {k : Nat} (h : k < (rowsOf rows participantId).length) :
    tablePlace (rowsOf rows participantId) participantId k = k := by
  have hplaces : ownPlaces (rowsOf rows participantId) participantId =
      List.range (rowsOf rows participantId).length := by
    rw [← filter_range_eq_ownPlaces]
    refine List.filter_eq_self.mpr fun k hk => decide_eq_true ?_
    exact eq_of_beq (List.mem_filter.mp (rowAt_mem (List.mem_range.mp hk))).2
  rw [ownPlaces] at hplaces
  rw [tablePlace, Selection.placeOf, hplaces, List.getD_eq_getElem?_getD,
    List.getElem?_range h, Option.getD_some]

/-- The participant's walk over the table is its walk over its own rows. -/
theorem ownWalk_eq_map (rows : List Row) (participantId : String) :
    cutSessions (ownWalk rows participantId) =
      (cutSessions (ownWalk (rowsOf rows participantId) participantId)).map
        (ScreenSessionClose.mapIndex (tablePlace rows participantId)) := by
  have halone : ownPlaces (rowsOf rows participantId) participantId =
      List.range (rowsOf rows participantId).length := by
    rw [ownPlaces_eq_map, rowsOf_rowsOf]
    exact (List.map_congr_left fun k hk => tablePlace_rowsOf (List.mem_range.mp hk)).trans
      (List.map_id _)
  have hinside : ∀ k ∈ List.range (rowsOf rows participantId).length,
      k < (rowsOf rows participantId).length := fun k hk => List.mem_range.mp hk
  have hfold := foldl_ownStep_tablePlace _ hinside (none, [])
  rw [ownWalk, ownWalk, halone, ownPlaces_eq_map]
  simp only [Option.map_none, List.map_nil] at hfold
  rw [hfold, cutSessions, cutSessions, List.map_append]
  congr 1
  cases ((List.range (rowsOf rows participantId).length).foldl
    (ownStep (rowsOf rows participantId)) (none, [])).1 <;> rfl

/-- No other participant has a session among the rows. -/
theorem filter_sessions_rowsOf (rows : List Row) (participantId : String) :
    ((inferScreenSessionSkeletons (rowsOf rows participantId)).filter fun close =>
        close.participantId (rowsOf rows participantId) = participantId) =
      inferScreenSessionSkeletons (rowsOf rows participantId) := by
  refine List.filter_eq_self.mpr fun close hclose => decide_eq_true ?_
  by_contra hother
  have hcut := mem_cutSessions_of_mem hclose
  rw [ownWalk, ownPlaces_eq_map, rowsOf_rowsOf_of_ne hother] at hcut
  exact absurd hcut List.not_mem_nil

theorem key_mapIndex_le {first second : ScreenSessionClose}
    (hfirst : first ∈ cutSessions (ownWalk (rowsOf rows participantId) participantId))
    (hsecond : second ∈ cutSessions (ownWalk (rowsOf rows participantId) participantId)) :
    first.key (rowsOf rows participantId) ≤ second.key (rowsOf rows participantId) ↔
      (first.mapIndex (tablePlace rows participantId)).key rows ≤
        (second.mapIndex (tablePlace rows participantId)).key rows := by
  have hfacts := ownFacts_ownWalk (rowsOf rows participantId) participantId
  have hstart := (startIndex_lt_of_mem_cutSessions hfacts hfirst).1
  have hstart' := (startIndex_lt_of_mem_cutSessions hfacts hsecond).1
  have howner : ∀ close : ScreenSessionClose,
      close.state.startIndex < (rowsOf rows participantId).length →
      (close.mapIndex (tablePlace rows participantId)).participantId rows =
        close.participantId (rowsOf rows participantId) := fun close hclose =>
    congrArg Row.participantId (rowAt_tablePlace hclose)
  have hindex : tablePlace rows participantId first.state.startIndex ≤
      tablePlace rows participantId second.state.startIndex ↔
        first.state.startIndex ≤ second.state.startIndex := by
    constructor
    · intro hle
      by_contra hlt
      exact absurd (tablePlace_lt (not_le.mp hlt) hstart) (not_lt.mpr hle)
    · intro hle
      rcases Nat.lt_or_eq_of_le hle with hlt | heq
      · exact (tablePlace_lt hlt hstart').le
      · rw [heq]
  rw [ScreenSessionClose.key, ScreenSessionClose.key, ScreenSessionClose.key,
    ScreenSessionClose.key, howner first hstart, howner second hstart']
  simp only [Prod.Lex.toLex_le_toLex, ScreenSessionClose.mapIndex, ScreenState.mapIndex, hindex]

/-- A participant's sessions are the same when the rows of all others are removed. -/
theorem sessions_alone (rows : List Row) (participantId : String) :
    ((inferScreenSessionSkeletons rows).filter fun close =>
        close.participantId rows = participantId) =
      (inferScreenSessionSkeletons (rowsOf rows participantId)).map
        (ScreenSessionClose.mapIndex (tablePlace rows participantId)) := by
  rw [← filter_sessions_rowsOf, filter_inferScreenSessionSkeletons,
    filter_inferScreenSessionSkeletons, ownWalk_eq_map, sortByKey, sortByKey]
  refine (List.map_insertionSort _ _ (ScreenSessionClose.mapIndex (tablePlace rows participantId))
    (cutSessions (ownWalk (rowsOf rows participantId) participantId)) ?_).symm
  exact fun first hfirst second hsecond => key_mapIndex_le hfirst hsecond

end Sessions

/-! ## Stops without a session -/

/-- What holds of the stops after `k` rows. -/
structure StopFacts (rows : List Row) (k : Nat) (walk : ScreenWalk) : Prop where
  increasing : (sessionStops walk.closes).Pairwise (· < ·)
  stops : ∀ stop ∈ sessionStops walk.closes, stop < k ∧ (rowAt rows stop).stopsScreen = true
  orphans : ∃ opened : List String, (∀ participantId, participantId ∈ opened ↔
      (walk.states participantId).isSome = true) ∧
    chronicleOrphanStopIssues rows =
      ((List.range k).filter fun index => (rowAt rows index).stopsScreen &&
        decide (index ∉ sessionStops walk.closes)).filterMap (orphanIssue rows) ++
      orphanStopsFrom opened (rows.drop k)

section Orphans

variable {rows : List Row} {walk : ScreenWalk} {k : Nat} {participantId : String}

theorem stopFacts_zero (rows : List Row) : StopFacts rows 0 {} where
  increasing := .nil
  stops stop hstop := absurd hstop List.not_mem_nil
  orphans := ⟨[], by simp, rfl⟩

/-- A row that ends no session. -/
theorem StopFacts.keep (h : StopFacts rows k walk) {next : Option ScreenState}
    (hopened : ∀ opened : List String, (∀ participantId, participantId ∈ opened ↔
        (walk.states participantId).isSome = true) → ∃ after : List String,
      (∀ participantId, participantId ∈ after ↔
        (Function.update walk.states (rowAt rows k).participantId next participantId).isSome = true) ∧
      orphanStopsFrom opened (rows.drop k) =
        (if (rowAt rows k).stopsScreen then (orphanIssue rows k).toList else []) ++
          orphanStopsFrom after (rows.drop (k + 1))) :
    StopFacts rows (k + 1)
      { states := Function.update walk.states (rowAt rows k).participantId next
        closes := walk.closes } where
  increasing := h.increasing
  stops stop hstop := ⟨(h.stops stop hstop).1.trans (Nat.lt_succ_self k), (h.stops stop hstop).2⟩
  orphans := by
    obtain ⟨opened, hopen, hissues⟩ := h.orphans
    obtain ⟨after, hafter, hrest⟩ := hopened opened hopen
    have hnew : k ∉ sessionStops walk.closes := fun hstop => lt_irrefl k (h.stops k hstop).1
    refine ⟨after, hafter, ?_⟩
    rw [hissues, hrest, List.range_succ, List.filter_append, List.filterMap_append,
      List.append_assoc]
    congr 2
    cases hstop : (rowAt rows k).stopsScreen with
    | false => simp [hstop]
    | true => cases hissue : orphanIssue rows k <;> simp [hstop, hnew, hissue]

/-- A row that ends the session of its participant. -/
theorem StopFacts.close (h : StopFacts rows k walk) {close : ScreenSessionClose}
    (hindex : close.stopIndex = some k) (hstop : (rowAt rows k).stopsScreen = true)
    (hopened : ∀ opened : List String, (∀ participantId, participantId ∈ opened ↔
        (walk.states participantId).isSome = true) → ∃ after : List String,
      (∀ participantId, participantId ∈ after ↔
        (Function.update walk.states (rowAt rows k).participantId none participantId).isSome = true) ∧
      orphanStopsFrom opened (rows.drop k) = orphanStopsFrom after (rows.drop (k + 1))) :
    StopFacts rows (k + 1)
      { states := Function.update walk.states (rowAt rows k).participantId none
        closes := walk.closes ++ [close] } := by
  have hstops : sessionStops (walk.closes ++ [close]) = sessionStops walk.closes ++ [k] := by
    simp [sessionStops, hindex]
  refine ⟨?_, fun stop hmem => ?_, ?_⟩
  · rw [hstops]
    refine List.pairwise_append.mpr ⟨h.increasing, List.pairwise_singleton _ _, ?_⟩
    intro stop hmem other hother
    rw [List.mem_singleton.mp hother]
    exact (h.stops stop hmem).1
  · rw [hstops] at hmem
    rcases List.mem_append.mp hmem with hmem | hmem
    · exact ⟨(h.stops stop hmem).1.trans (Nat.lt_succ_self k), (h.stops stop hmem).2⟩
    · rw [List.mem_singleton.mp hmem]
      exact ⟨Nat.lt_succ_self k, hstop⟩
  · obtain ⟨opened, hopen, hissues⟩ := h.orphans
    obtain ⟨after, hafter, hrest⟩ := hopened opened hopen
    refine ⟨after, hafter, ?_⟩
    rw [hissues, hrest, hstops, List.range_succ, List.filter_append]
    congr 2
    rw [List.filter_singleton]
    simp only [List.mem_append, List.mem_singleton, or_true, not_true_eq_false, decide_false,
      Bool.and_false, cond_false, List.append_nil]
    refine List.filter_congr fun index hrange => ?_
    have hne : index ≠ k := Nat.ne_of_lt (List.mem_range.mp hrange)
    simp [hne]

theorem StopFacts.screenStep (h : StopFacts rows k walk) (hk : k < rows.length) :
    StopFacts rows (k + 1) (screenStep rows walk k) := by
  have hdrop : rows.drop k = rowAt rows k :: rows.drop (k + 1) := by
    rw [rowAt_eq hk, List.drop_eq_getElem_cons hk]
  -- whether the participant of row `k` has an open session decides the row step
  cases hcurrent : walk.states (rowAt rows k).participantId with
  | none =>
      rw [screenStep_eq rows walk k hcurrent]
      simp only [screenRowStep, Option.toList_none, List.append_nil]
      refine h.keep fun opened hopen => ?_
      have hclosed : (rowAt rows k).participantId ∉ opened := by
        rw [hopen, hcurrent]
        simp
      rw [hdrop, orphanStopsFrom]
      cases hstart : (rowAt rows k).startsScreen with
      | true =>
          -- no row is both a start and a stop
          have hstop : (rowAt rows k).stopsScreen = false := by
            by_contra hstop
            rw [Bool.not_eq_false] at hstop
            exact absurd hstart (by simp [not_startsScreen_of_stopsScreen hstop])
          refine ⟨(rowAt rows k).participantId :: opened, fun participantId => ?_, by simp [hstop]⟩
          by_cases hsame : participantId = (rowAt rows k).participantId
          · simp [hsame]
          · simp [hsame, hopen]
      | false =>
          refine ⟨opened, fun participantId => ?_, ?_⟩
          · by_cases hsame : participantId = (rowAt rows k).participantId
            · simp [hsame, hclosed]
            · simp [hsame, hopen]
          · cases hstop : (rowAt rows k).stopsScreen with
            | false => simp
            -- without an open session a stop is an orphan on both sides
            | true => simp [hclosed, orphanIssue]
  | some state =>
      rw [screenStep_eq rows walk k hcurrent, screenRowStep]
      have hheld : ∀ next : ScreenState, ∀ opened : List String,
          (∀ participantId, participantId ∈ opened ↔
            (walk.states participantId).isSome = true) → ∀ participantId,
          participantId ∈ opened ↔ (Function.update walk.states (rowAt rows k).participantId
            (some next) participantId).isSome = true := by
        intro next opened hopen participantId
        by_cases hsame : participantId = (rowAt rows k).participantId
        · simp [hsame, hopen, hcurrent]
        · simp [hsame, hopen]
      split
      · -- a second start keeps the session that is open
        rename_i hstart
        rw [Option.toList_none, List.append_nil]
        have hstop : (rowAt rows k).stopsScreen = false := by
          by_contra hstop
          rw [Bool.not_eq_false] at hstop
          exact absurd hstart (by simp [not_startsScreen_of_stopsScreen hstop])
        refine h.keep fun opened hopen =>
          ⟨(rowAt rows k).participantId :: opened, fun participantId => ?_, ?_⟩
        · rw [← hheld _ opened hopen, List.mem_cons, or_iff_right_of_imp]
          rintro rfl
          rw [hopen, hcurrent]
          rfl
        · rw [hdrop, orphanStopsFrom, if_pos hstart, hstop]
          simp
      · rename_i hstart
        split
        · rename_i hstop
          refine h.close rfl hstop fun opened hopen =>
            ⟨opened.filter (· ≠ (rowAt rows k).participantId), fun participantId => ?_, ?_⟩
          · by_cases hsame : participantId = (rowAt rows k).participantId
            · simp [hsame]
            · simp [hsame, hopen]
          · have hmem : (rowAt rows k).participantId ∈ opened := by
              rw [hopen, hcurrent]
              rfl
            rw [hdrop, orphanStopsFrom, if_neg hstart, if_pos hstop, if_pos hmem]
        · rename_i hstop
          rw [Option.toList_none, List.append_nil]
          refine h.keep fun opened hopen => ⟨opened, hheld _ opened hopen, ?_⟩
          rw [hdrop, orphanStopsFrom, if_neg hstart, if_neg hstop, if_neg hstop, List.nil_append]

theorem stopFacts_screenWalk (rows : List Row) :
    StopFacts rows rows.length (screenWalk rows) :=
  foldl_range_induction (stopFacts_zero rows) fun _ _ hk h => h.screenStep hk

theorem sessionStops_perm (rows : List Row) :
    (sessionStops (inferScreenSessionSkeletons rows)).Perm
      (sessionStops (screenWalk rows).closes) := by
  have hopen : sessionStops (openSessions rows) = [] := by
    refine List.filterMap_eq_nil_iff.mpr fun close hclose => ?_
    obtain ⟨_, _, _, _, rfl⟩ := mem_openSessions.mp hclose
    rfl
  have hperm := (perm_sortByKey (ScreenSessionClose.key rows)
    ((screenWalk rows).closes ++ openSessions rows)).filterMap ScreenSessionClose.stopIndex
  rwa [List.filterMap_append, show (openSessions rows).filterMap ScreenSessionClose.stopIndex = []
    from hopen, List.append_nil] at hperm

end Orphans

/-! ## Both loops -/

/-- The sessions of each participant share no row, at most one is open and it follows the others;
every stop ends one session or is reported; and other participants make no difference. -/
theorem screen_sessions_account_for_stops (rows : List Row) :
    (∀ participantId,
      let own := (inferScreenSessionSkeletons rows).filter fun close =>
        close.participantId rows = participantId
      own.Pairwise ScreenSessionClose.Apart ∧
        (∀ close ∈ own, ∀ stop ∈ close.stopIndex, close.state.startIndex < stop) ∧
        own.countP (fun close => close.stopIndex.isNone) ≤ 1 ∧
        (∀ close ∈ own, close.stopIndex = none →
          ∀ other ∈ own, other ≠ close → other.Precedes close) ∧
        own = (inferScreenSessionSkeletons (rowsOf rows participantId)).map
          (ScreenSessionClose.mapIndex (tablePlace rows participantId))) ∧
      (sessionStops (inferScreenSessionSkeletons rows)).Nodup ∧
      (∀ stop ∈ sessionStops (inferScreenSessionSkeletons rows),
        stop < rows.length ∧ (rowAt rows stop).stopsScreen = true) ∧
      chronicleOrphanStopIssues rows =
        ((List.range rows.length).filter fun index => (rowAt rows index).stopsScreen &&
          decide (index ∉ sessionStops (inferScreenSessionSkeletons rows))).filterMap
            (orphanIssue rows) := by
  have hstops := stopFacts_screenWalk rows
  have hperm := sessionStops_perm rows
  refine ⟨fun participantId => ⟨pairwise_apart rows participantId, ?_, ?_, ?_, sessions_alone _ _⟩,
    ?_, fun stop hstop => hstops.stops stop (hperm.mem_iff.mp hstop), ?_⟩
  · exact fun close hclose => start_lt_stop (List.mem_of_mem_filter hclose)
  · exact countP_open_le_one (pairwise_apart rows participantId)
  · intro close hclose hnone other hother hne
    have hpair := pairwise_apart rows participantId
    rcases hpair.forall hother hclose hne with h | ⟨stop, hstop, -⟩
    · exact h
    · rw [hnone] at hstop
      cases hstop
  · exact hperm.nodup_iff.mpr (hstops.increasing.imp Nat.ne_of_lt)
  · obtain ⟨opened, -, hissues⟩ := hstops.orphans
    rw [hissues, List.drop_length, orphanStopsFrom, List.append_nil]
    simp only [hperm.mem_iff]

end Chronicle.Pipeline
