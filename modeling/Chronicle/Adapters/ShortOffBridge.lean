import Chronicle.Eyes.Evidence
import Chronicle.Library.ShortRuns
import Chronicle.Library.Stages

/-!
# Short off runs that are bounded by on seconds

Seconds of a screen are regrouped by participant and put in order; a run of at most three off
seconds between two on seconds is repaired. One second after the greatest `i64` is never supplied,
so that `checked_add` needs no case of its own.
-/

namespace Chronicle.Adapters

open Chronicle.Library Chronicle.Library.ShortRuns Chronicle.Library.StableSort Chronicle.Eyes

/-- `ScreenSecondState` -/
inductive ScreenSecondState where
  | on
  | off
  | unknown
deriving DecidableEq, Repr

/-- `ScreenSecond` -/
structure ScreenSecond where
  participantId : String
  secondIndex : Int
  state : ScreenSecondState
deriving DecidableEq, Repr

/-- The participant and the second of a row. -/
def ScreenSecond.clock (row : ScreenSecond) : String × Int := (row.participantId, row.secondIndex)

/-- The checks of the first loop; `seen` holds the clocks of the rows before. -/
def checkSeconds (seen : List (String × Int)) : List ScreenSecond → Except String Unit
  | [] => .ok ()
  | row :: rows =>
      if isBlank row.participantId then
        .error "short-OFF bridge requires a nonblank participant_id"
      else if row.clock ∈ seen then
        .error "short-OFF bridge refuses duplicate participant/second_index clocks"
      else checkSeconds (row.clock :: seen) rows

/-- A row and its position. -/
abbrev PlacedSecond := ScreenSecond × Nat

/-- The rows of one participant in the order of their seconds. -/
def secondsOf (rows : List ScreenSecond) (participantId : String) : List PlacedSecond :=
  sortByKey (fun cell => cell.1.secondIndex)
    (rows.zipIdx.filter fun cell => cell.1.participantId = participantId)

/-- The participants, in the order of a `BTreeMap`. -/
def participants (rows : List ScreenSecond) : List String :=
  sortByKey (fun id => id) (rows.map ScreenSecond.participantId).dedup

/-- The rows of one participant that are repaired. -/
def repairedOf (cells : List PlacedSecond) : List PlacedSecond :=
  bridged (fun cell => cell.1.secondIndex) (fun cell => cell.1.state = .on)
    (fun cell => cell.1.state = .off) 3 none [] cells

/-- The positions that are repaired. -/
def repairedPositions (rows : List ScreenSecond) : List Nat :=
  ((participants rows).flatMap fun id => repairedOf (secondsOf rows id)).map Prod.snd

/-- `bridge_on_bounded_short_off_runs` -/
def bridgeOnBoundedShortOffRuns (rows : List ScreenSecond) :
    Except String (List ScreenSecondState) := do
  checkSeconds [] rows
  return rows.zipIdx.map fun cell =>
    if cell.2 ∈ repairedPositions rows then .on else cell.1.state

/-! ## The rule -/

/-- The off second stands between two on seconds of its participant at most four seconds apart, and
every second between these is there and off. -/
def BridgedSecond (rows : List ScreenSecond) (row : ScreenSecond) : Prop :=
  row.state = .off ∧ ∃ a ∈ rows, ∃ b ∈ rows, a.participantId = row.participantId ∧
    b.participantId = row.participantId ∧ a.state = .on ∧ b.state = .on ∧
    a.secondIndex < row.secondIndex ∧ row.secondIndex < b.secondIndex ∧
    b.secondIndex - a.secondIndex ≤ 4 ∧
    ∀ s, a.secondIndex < s → s < b.secondIndex →
      ∃ r ∈ rows, r.participantId = row.participantId ∧ r.secondIndex = s ∧ r.state = .off

/-- What the rule makes of a row. -/
def Repairs (rows : List ScreenSecond) (row : ScreenSecond) (state : ScreenSecondState) : Prop :=
  BridgedSecond rows row ∧ state = .on ∨ ¬BridgedSecond rows row ∧ state = row.state

variable {rows rows' : List ScreenSecond} {row row' : ScreenSecond} {seen : List (String × Int)}

theorem checkSeconds_eq_ok : checkSeconds seen rows = .ok () ↔
    (∀ row ∈ rows, isBlank row.participantId = false) ∧ (rows.map ScreenSecond.clock).Nodup ∧
      ∀ row ∈ rows, row.clock ∉ seen := by
  induction rows generalizing seen with
  | nil => simp [checkSeconds]
  | cons row rows ih =>
      rw [checkSeconds, Stages.ite_error_eq_ok, Stages.ite_error_eq_ok, ih, List.map_cons,
        List.nodup_cons, List.forall_mem_cons, List.forall_mem_cons, Bool.not_eq_true]
      constructor
      · intro ⟨hblank, hseen, hblanks, hnodup, hlater⟩
        refine ⟨⟨hblank, hblanks⟩, ⟨fun hmem => ?_, hnodup⟩, hseen, fun other hother hmem => ?_⟩
        · obtain ⟨other, hother, heq⟩ := List.mem_map.mp hmem
          exact hlater other hother (heq ▸ List.mem_cons_self)
        · exact hlater other hother (List.mem_cons_of_mem _ hmem)
      · intro ⟨⟨hblank, hblanks⟩, ⟨hfirst, hnodup⟩, hseen, hlater⟩
        refine ⟨hblank, hseen, hblanks, hnodup, fun other hother hmem => ?_⟩
        obtain heq | hmem := List.mem_cons.mp hmem
        · exact hfirst (heq ▸ List.mem_map_of_mem hother)
        · exact hlater other hother hmem

theorem eq_of_clock (hnodup : (rows.map ScreenSecond.clock).Nodup) (hrow : row ∈ rows)
    (hrow' : row' ∈ rows) (hid : row.participantId = row'.participantId)
    (hsecond : row.secondIndex = row'.secondIndex) : row = row' :=
  List.inj_on_of_nodup_map hnodup hrow hrow' (Prod.ext hid hsecond)

/-! ## The rows of a participant -/

theorem mem_secondsOf {cell : PlacedSecond} {id : String} :
    cell ∈ secondsOf rows id ↔ rows[cell.2]? = some cell.1 ∧ cell.1.participantId = id := by
  rw [secondsOf, mem_sortByKey, List.mem_filter, decide_eq_true_eq, List.mem_zipIdx_iff_getElem?]

theorem exists_mem_secondsOf {id : String} :
    (∃ position, (row, position) ∈ secondsOf rows id) ↔ row ∈ rows ∧ row.participantId = id := by
  simp only [mem_secondsOf, exists_and_right, ← List.mem_iff_getElem?]

theorem increasing_secondsOf (hnodup : (rows.map ScreenSecond.clock).Nodup) (id : String) :
    Increasing (fun cell : PlacedSecond => cell.1.secondIndex) (secondsOf rows id) := by
  have hsorted := pairwise_sortByKey (fun cell : PlacedSecond => cell.1.secondIndex)
    (rows.zipIdx.filter fun cell => cell.1.participantId = id)
  have hclocks : (rows.zipIdx.map fun cell => cell.1.clock).Nodup := by
    have hfirst : rows.zipIdx.map (fun cell => cell.1.clock) = rows.map ScreenSecond.clock :=
      calc rows.zipIdx.map (fun cell => cell.1.clock)
          = (rows.zipIdx.map Prod.fst).map ScreenSecond.clock := by rw [List.map_map]; rfl
        _ = rows.map ScreenSecond.clock := by rw [List.zipIdx_map_fst]
    rw [hfirst]
    exact hnodup
  have hdistinct : (rows.zipIdx.filter fun cell => cell.1.participantId = id).Pairwise
      fun a b => a.1.secondIndex ≠ b.1.secondIndex := by
    have hfilter := (List.pairwise_map.mp hclocks).filter fun cell => cell.1.participantId = id
    refine hfilter.imp_of_mem fun {a b} ha hb hne heq => hne ?_
    have hida := of_decide_eq_true (List.mem_filter.mp ha).2
    have hidb := of_decide_eq_true (List.mem_filter.mp hb).2
    exact Prod.ext (hida.trans hidb.symm) heq
  have hperm := (perm_sortByKey (fun cell : PlacedSecond => cell.1.secondIndex)
    (rows.zipIdx.filter fun cell => cell.1.participantId = id)).symm
  have hdistinct := hperm.pairwise hdistinct fun hne => hne.symm
  exact hsorted.imp₂ (fun _ _ hle hne => lt_of_le_of_ne hle hne) hdistinct

/-- A row is repaired as the rule says. -/
theorem mem_repairedOf_iff (hnodup : (rows.map ScreenSecond.clock).Nodup) {position : Nat}
    {id : String} (hcell : (row, position) ∈ secondsOf rows id) :
    (row, position) ∈ repairedOf (secondsOf rows id) ↔ BridgedSecond rows row := by
  have hid : row.participantId = id := (mem_secondsOf.mp hcell).2
  have hunderway : Underway (fun cell : PlacedSecond => cell.1.secondIndex)
      (fun cell => cell.1.state = .off) none [] (secondsOf rows id) :=
    ⟨increasing_secondsOf hnodup id, nofun, nofun⟩
  have hexclusive : ∀ cell : PlacedSecond, decide (cell.1.state = .on) = true →
      decide (cell.1.state = .off) = false := by
    intro cell hon
    rw [of_decide_eq_true hon]
    rfl
  have hmem := mem_bridged_iff 3 hexclusive hunderway hcell
  rw [repairedOf, hmem, Bridged, BridgedSecond]
  simp only [Option.toList_none, List.nil_append, decide_eq_true_eq]
  refine and_congr_right fun _ => ?_
  constructor
  · rintro ⟨⟨a, i⟩, ha, ⟨b, j⟩, hb, hona, honb, hlower, hupper, hnear, hfilled⟩
    obtain ⟨ha, hida⟩ := exists_mem_secondsOf.mp ⟨i, ha⟩
    obtain ⟨hb, hidb⟩ := exists_mem_secondsOf.mp ⟨j, hb⟩
    refine ⟨a, ha, b, hb, hida.trans hid.symm, hidb.trans hid.symm, hona, honb, hlower, hupper,
      by push_cast at hnear; omega, fun s hs hs' => ?_⟩
    obtain ⟨⟨r, k⟩, hr, hsecond, hoff⟩ := hfilled s hs hs'
    obtain ⟨hr, hidr⟩ := exists_mem_secondsOf.mp ⟨k, hr⟩
    exact ⟨r, hr, hidr.trans hid.symm, hsecond, hoff⟩
  · rintro ⟨a, ha, b, hb, hida, hidb, hona, honb, hlower, hupper, hnear, hfilled⟩
    obtain ⟨i, ha⟩ := exists_mem_secondsOf.mpr ⟨ha, hida.trans hid⟩
    obtain ⟨j, hb⟩ := exists_mem_secondsOf.mpr ⟨hb, hidb.trans hid⟩
    refine ⟨(a, i), ha, (b, j), hb, hona, honb, hlower, hupper, by push_cast; omega,
      fun s hs hs' => ?_⟩
    obtain ⟨r, hr, hidr, hsecond, hoff⟩ := hfilled s hs hs'
    obtain ⟨k, hr⟩ := exists_mem_secondsOf.mpr ⟨hr, hidr.trans hid⟩
    exact ⟨(r, k), hr, hsecond, hoff⟩

theorem mem_repairedPositions_iff (hnodup : (rows.map ScreenSecond.clock).Nodup) {position : Nat}
    (hrow : rows[position]? = some row) :
    position ∈ repairedPositions rows ↔ BridgedSecond rows row := by
  have hcell : (row, position) ∈ secondsOf rows row.participantId :=
    mem_secondsOf.mpr ⟨hrow, rfl⟩
  rw [← mem_repairedOf_iff hnodup hcell, repairedPositions, List.mem_map]
  constructor
  · rintro ⟨⟨other, i⟩, hmem, rfl⟩
    obtain ⟨id, -, hmem⟩ := List.mem_flatMap.mp hmem
    have hwalked := mem_of_mem_bridged hmem
    rw [List.nil_append] at hwalked
    obtain ⟨hother, hid⟩ := mem_secondsOf.mp hwalked
    obtain rfl := Option.some.inj (hrow.symm.trans hother)
    rw [hid]
    exact hmem
  · intro hmem
    refine ⟨(row, position), List.mem_flatMap.mpr ⟨row.participantId, ?_, hmem⟩, rfl⟩
    rw [participants, mem_sortByKey, List.mem_dedup]
    exact List.mem_map_of_mem (List.mem_of_getElem? hrow)

/-! ## The result -/

/-- No participant is blank, and no clock occurs twice. -/
structure WellClocked (rows : List ScreenSecond) : Prop where
  nonblank : ∀ row ∈ rows, isBlank row.participantId = false
  nodup : (rows.map ScreenSecond.clock).Nodup

theorem checkSeconds_nil_eq_ok : checkSeconds [] rows = .ok () ↔ WellClocked rows := by
  rw [checkSeconds_eq_ok]
  exact ⟨fun h => ⟨h.1, h.2.1⟩, fun h => ⟨h.nonblank, h.nodup, fun _ _ => List.not_mem_nil⟩⟩

/-- What the positions show. -/
def bridgedStates (rows : List ScreenSecond) : List ScreenSecondState :=
  rows.zipIdx.map fun cell => if cell.2 ∈ repairedPositions rows then .on else cell.1.state

theorem bridge_eq_ok {result : List ScreenSecondState} :
    bridgeOnBoundedShortOffRuns rows = .ok result ↔
      WellClocked rows ∧ result = bridgedStates rows := by
  rw [bridgeOnBoundedShortOffRuns, Stages.bind_eq_ok]
  constructor
  · intro ⟨_, hcheck, hresult⟩
    exact ⟨checkSeconds_nil_eq_ok.mp hcheck, (Except.ok.inj hresult).symm⟩
  · rintro ⟨h, rfl⟩
    exact ⟨(), checkSeconds_nil_eq_ok.mpr h, rfl⟩

/-- Every position is repaired as the rule says. -/
theorem forall₂_repairs (h : WellClocked rows) :
    List.Forall₂ (Repairs rows) rows (bridgedStates rows) := by
  have hfirst : rows.zipIdx.map Prod.fst = rows := List.zipIdx_map_fst 0 rows
  have hcells : List.Forall₂ (Repairs rows) (rows.zipIdx.map Prod.fst) (bridgedStates rows) := by
    refine List.forall₂_map_left_iff.mpr (List.forall₂_map_right_iff.mpr
      (List.forall₂_same.mpr fun cell hcell => ?_))
    have hrule := mem_repairedPositions_iff h.nodup (List.mem_zipIdx_iff_getElem?.mp hcell)
    by_cases hbridged : BridgedSecond rows cell.1
    · exact .inl ⟨hbridged, if_pos (hrule.mpr hbridged)⟩
    · exact .inr ⟨hbridged, if_neg fun hmem => hbridged (hrule.mp hmem)⟩
  rw [hfirst] at hcells
  exact hcells

theorem Repairs.unique {state state' : ScreenSecondState} (h : Repairs rows row state)
    (h' : Repairs rows row state') : state = state' := by
  obtain ⟨hbridged, rfl⟩ | ⟨hbridged, rfl⟩ := h
  · obtain ⟨-, rfl⟩ | ⟨hnot, -⟩ := h'
    · rfl
    · exact absurd hbridged hnot
  · obtain ⟨hbridged', -⟩ | ⟨-, rfl⟩ := h'
    · exact absurd hbridged' hbridged
    · rfl

theorem repairs_of_getElem? (h : WellClocked rows) {position : Nat}
    (hrow : rows[position]? = some row) :
    ∃ state, (bridgedStates rows)[position]? = some state ∧ Repairs rows row state := by
  have hlength : (bridgedStates rows).length = rows.length := by
    rw [bridgedStates, List.length_map, List.length_zipIdx]
  obtain ⟨hlt, rfl⟩ := List.getElem?_eq_some_iff.mp hrow
  have hlt' : position < (bridgedStates rows).length := hlength ▸ hlt
  exact ⟨_, List.getElem?_eq_getElem hlt', (forall₂_repairs h).get hlt hlt'⟩

/-- The rule reads no rows of other participants. -/
theorem bridgedSecond_congr
    (h : ∀ r, r.participantId = row.participantId → (r ∈ rows ↔ r ∈ rows')) :
    BridgedSecond rows row ↔ BridgedSecond rows' row := by
  have hmono : ∀ {l l' : List ScreenSecond},
      (∀ r, r.participantId = row.participantId → (r ∈ l ↔ r ∈ l')) →
      BridgedSecond l row → BridgedSecond l' row := by
    rintro l l' h ⟨hoff, a, ha, b, hb, hida, hidb, hrest⟩
    obtain ⟨hona, honb, hlower, hupper, hnear, hfilled⟩ := hrest
    refine ⟨hoff, a, (h a hida).mp ha, b, (h b hidb).mp hb, hida, hidb, hona, honb, hlower, hupper,
      hnear, fun s hs hs' => ?_⟩
    obtain ⟨r, hr, hid, hsecond, hroff⟩ := hfilled s hs hs'
    exact ⟨r, (h r hid).mp hr, hid, hsecond, hroff⟩
  exact ⟨hmono h, hmono fun r hid => (h r hid).symm⟩

theorem repairs_congr (h : ∀ r, r.participantId = row.participantId → (r ∈ rows ↔ r ∈ rows'))
    {state : ScreenSecondState} : Repairs rows row state ↔ Repairs rows' row state := by
  rw [Repairs, Repairs, bridgedSecond_congr h]

/-! ## The bridge applied again -/

/-- The rows with other states. -/
def withStates (rows : List ScreenSecond) (states : List ScreenSecondState) : List ScreenSecond :=
  rows.zipWith (fun row state => { row with state }) states

theorem withStates_spec {states : List ScreenSecondState} {R : ScreenSecond → ScreenSecondState → Prop}
    (h : List.Forall₂ R rows states) :
    (withStates rows states).map ScreenSecond.clock = rows.map ScreenSecond.clock ∧
      (withStates rows states).map ScreenSecond.state = states ∧
      (∀ row ∈ rows, ∃ state, R row state ∧ { row with state } ∈ withStates rows states) ∧
      ∀ later ∈ withStates rows states, ∃ row ∈ rows, ∃ state, R row state ∧
        later = { row with state } := by
  induction h with
  | nil => exact ⟨rfl, rfl, nofun, nofun⟩
  | cons hfirst hrest ih =>
      obtain ⟨hclocks, hstates, hforth, hback⟩ := ih
      refine ⟨congrArg₂ List.cons rfl hclocks, congrArg₂ List.cons rfl hstates, ?_, ?_⟩
      · intro row hrow
        obtain rfl | hrow := List.mem_cons.mp hrow
        · exact ⟨_, hfirst, List.mem_cons_self⟩
        · obtain ⟨state, hR, hmem⟩ := hforth row hrow
          exact ⟨state, hR, List.mem_cons_of_mem _ hmem⟩
      · intro later hlater
        obtain rfl | hlater := List.mem_cons.mp hlater
        · exact ⟨_, List.mem_cons_self, _, hfirst, rfl⟩
        · obtain ⟨row, hrow, state, hR, heq⟩ := hback later hlater
          exact ⟨row, List.mem_cons_of_mem _ hrow, state, hR, heq⟩

/-- A second that the bridge shows off was off, and the rule does not reach it. -/
theorem Repairs.of_off (h : Repairs rows row .off) : row.state = .off ∧ ¬BridgedSecond rows row := by
  obtain ⟨-, heq⟩ | ⟨hnot, heq⟩ := h
  · cases heq
  · exact ⟨heq.symm, hnot⟩

/-- A bound that the bridge made is next to one that it did not make, on either side. -/
theorem on_of_repairs_on (h : WellClocked rows) {a : ScreenSecond} (ha : a ∈ rows)
    (hrepairs : Repairs rows a .on) {step : Int} (hstep : step = 1 ∨ step = -1)
    (hneighbour : ∃ r ∈ rows, r.participantId = a.participantId ∧
      r.secondIndex = a.secondIndex + step ∧ Repairs rows r .off) : a.state = .on := by
  obtain ⟨hbridged, -⟩ | ⟨-, heq⟩ := hrepairs
  · obtain ⟨-, c, hc, d, hd, hidc, hidd, honc, hond, hlower, hupper, hnear, hfilled⟩ := hbridged
    obtain ⟨r, hr, hidr, hsecond, hoff⟩ := hneighbour
    obtain ⟨hroff, hrnot⟩ := hoff.of_off
    -- the neighbour is off and not bridged, so that it would be one of the bounds, which are on
    have hne : ∀ e ∈ rows, e.participantId = a.participantId → e.state = .on →
        r.secondIndex ≠ e.secondIndex := by
      intro e he hide hone heq
      rw [eq_of_clock h.nodup hr he (hidr.trans hide.symm) heq, hone] at hroff
      cases hroff
    have hnec := hne c hc hidc honc
    have hned := hne d hd hidd hond
    refine absurd ⟨hroff, c, hc, d, hd, hidc.trans hidr.symm, hidd.trans hidr.symm, honc, hond,
      by omega, by omega, hnear, ?_⟩ hrnot
    intro s hs hs'
    obtain ⟨q, hq, hidq, hsecondq, hqoff⟩ := hfilled s hs hs'
    exact ⟨q, hq, hidq.trans hidr.symm, hsecondq, hqoff⟩
  · exact heq.symm

/-- The rule reaches no second of what the bridge returned. -/
theorem not_bridgedSecond_withStates (h : WellClocked rows) :
    ∀ later ∈ withStates rows (bridgedStates rows),
      ¬BridgedSecond (withStates rows (bridgedStates rows)) later := by
  obtain ⟨-, -, -, hback⟩ := withStates_spec (forall₂_repairs h)
  rintro later hlater ⟨hoff, a, ha, b, hb, hida, hidb, hona, honb, hlower, hupper, hnear, hfilled⟩
  obtain ⟨row, hrow, state, hrepairs, rfl⟩ := hback later hlater
  obtain ⟨a, harow, statea, hrepairsa, rfl⟩ := hback a ha
  obtain ⟨b, hbrow, stateb, hrepairsb, rfl⟩ := hback b hb
  obtain rfl : statea = .on := hona
  obtain rfl : stateb = .on := honb
  obtain rfl : state = .off := hoff
  obtain ⟨hrowOff, hrowNot⟩ := hrepairs.of_off
  simp only at hida hidb hlower hupper hnear hfilled
  have hbetween : ∀ s, a.secondIndex < s → s < b.secondIndex →
      ∃ r ∈ rows, r.participantId = row.participantId ∧ r.secondIndex = s ∧ Repairs rows r .off := by
    intro s hs hs'
    obtain ⟨r, hr, hidr, hsecond, hroff⟩ := hfilled s hs hs'
    obtain ⟨r, hrrow, stater, hrepairsr, rfl⟩ := hback r hr
    obtain rfl : stater = .off := hroff
    exact ⟨r, hrrow, hidr, hsecond, hrepairsr⟩
  have hona := on_of_repairs_on h harow hrepairsa (.inl rfl) (by
    obtain ⟨r, hr, hidr, hsecond, hroff⟩ := hbetween (a.secondIndex + 1) (by omega) (by omega)
    exact ⟨r, hr, hidr.trans hida.symm, hsecond, hroff⟩)
  have honb := on_of_repairs_on h hbrow hrepairsb (.inr rfl) (by
    obtain ⟨r, hr, hidr, hsecond, hroff⟩ := hbetween (b.secondIndex - 1) (by omega) (by omega)
    exact ⟨r, hr, hidr.trans hidb.symm, by omega, hroff⟩)
  refine hrowNot ⟨hrowOff, a, harow, b, hbrow, hida, hidb, hona, honb, hlower, hupper, hnear, ?_⟩
  intro s hs hs'
  obtain ⟨r, hr, hidr, hsecond, hroff⟩ := hbetween s hs hs'
  exact ⟨r, hr, hidr, hsecond, hroff.of_off.1⟩

/-- What the rule does not reach stays as it is. -/
theorem eq_states_of_not_bridged {all : List ScreenSecond} {states : List ScreenSecondState}
    (h : List.Forall₂ (Repairs all) rows states) (hnot : ∀ row ∈ rows, ¬BridgedSecond all row) :
    states = rows.map ScreenSecond.state := by
  induction h with
  | nil => rfl
  | cons hfirst hrest ih =>
      obtain ⟨hnotFirst, hnotRest⟩ := List.forall_mem_cons.mp hnot
      obtain ⟨hbridged, -⟩ | ⟨-, rfl⟩ := hfirst
      · exact absurd hbridged hnotFirst
      · exact congrArg _ (ih hnotRest)

/-- The bridge applied again changes nothing. -/
theorem bridge_withStates (h : WellClocked rows) :
    bridgeOnBoundedShortOffRuns (withStates rows (bridgedStates rows)) =
      .ok (bridgedStates rows) := by
  obtain ⟨hclocks, hstates, -, hback⟩ := withStates_spec (forall₂_repairs h)
  have hagain : WellClocked (withStates rows (bridgedStates rows)) := by
    refine ⟨fun later hlater => ?_, hclocks ▸ h.nodup⟩
    obtain ⟨row, hrow, state, -, rfl⟩ := hback later hlater
    exact h.nonblank row hrow
  refine bridge_eq_ok.mpr ⟨hagain, ?_⟩
  have hkept : bridgedStates (withStates rows (bridgedStates rows)) =
      (withStates rows (bridgedStates rows)).map ScreenSecond.state :=
    eq_states_of_not_bridged (forall₂_repairs hagain) (not_bridgedSecond_withStates h)
  rw [hkept, hstates]

/-- The bridge refuses blank participants and repeated clocks and nothing else. It repairs every
position as the rule says; what it shows of a participant depends on that participant's rows alone,
in any order; and it changes nothing when it is applied again. -/
theorem bridgeOnBoundedShortOffRuns_spec (rows : List ScreenSecond) :
    ((∃ failure, bridgeOnBoundedShortOffRuns rows = .error failure) ↔
      (∃ row ∈ rows, isBlank row.participantId = true) ∨
        ¬(rows.map ScreenSecond.clock).Nodup) ∧
    ∀ result, bridgeOnBoundedShortOffRuns rows = .ok result →
      List.Forall₂ (Repairs rows) rows result ∧
      (∀ (rows' : List ScreenSecond) (result' : List ScreenSecondState) (id : String),
        bridgeOnBoundedShortOffRuns rows' = .ok result' →
        (∀ r, r.participantId = id → (r ∈ rows ↔ r ∈ rows')) →
        ∀ (i j : Nat) (row : ScreenSecond), rows[i]? = some row → rows'[j]? = some row →
          row.participantId = id → result[i]? = result'[j]?) ∧
      bridgeOnBoundedShortOffRuns (withStates rows result) = .ok result := by
  constructor
  · have hok : (∃ result, bridgeOnBoundedShortOffRuns rows = .ok result) ↔ WellClocked rows :=
      ⟨fun ⟨_, h⟩ => (bridge_eq_ok.mp h).1, fun h => ⟨_, bridge_eq_ok.mpr ⟨h, rfl⟩⟩⟩
    have herror : (∃ failure, bridgeOnBoundedShortOffRuns rows = .error failure) ↔
        ¬WellClocked rows := by
      rw [← hok]
      cases bridgeOnBoundedShortOffRuns rows with
      | error failure => simp
      | ok result => simp
    rw [herror]
    constructor
    · intro h
      by_contra hnone
      obtain ⟨hblank, hnodup⟩ := not_or.mp hnone
      exact h ⟨fun row hrow => Bool.eq_false_iff.mpr fun hb => hblank ⟨row, hrow, hb⟩,
        not_not.mp hnodup⟩
    · rintro (⟨row, hrow, hblank⟩ | hnodup) h
      · rw [h.nonblank row hrow] at hblank
        cases hblank
      · exact hnodup h.nodup
  · intro result hresult
    obtain ⟨h, rfl⟩ := bridge_eq_ok.mp hresult
    refine ⟨forall₂_repairs h, ?_, bridge_withStates h⟩
    intro rows' result' id hresult' hsame i j row hrow hrow' hid
    obtain ⟨h', rfl⟩ := bridge_eq_ok.mp hresult'
    obtain ⟨state, hstate, hrepairs⟩ := repairs_of_getElem? h hrow
    obtain ⟨state', hstate', hrepairs'⟩ := repairs_of_getElem? h' hrow'
    -- the repair of a row depends on the rows of its participant only
    have hcongr : ∀ r, r.participantId = row.participantId → (r ∈ rows ↔ r ∈ rows') :=
      fun r hr => hsame r (hr.trans hid)
    rw [hstate, hstate', hrepairs.unique ((repairs_congr hcongr).mpr hrepairs')]

/-- Two participants, of whom one has a single off second between two on seconds. -/
def interleavedSeconds : List ScreenSecond :=
  [⟨"p", 2, .on⟩, ⟨"q", 1, .off⟩, ⟨"p", 0, .on⟩, ⟨"p", 1, .off⟩]

theorem bridgeOnBoundedShortOffRuns_interleaved :
    List.Forall₂ (Repairs interleavedSeconds) interleavedSeconds [.on, .off, .on, .on] ∧
      bridgeOnBoundedShortOffRuns (withStates interleavedSeconds [.on, .off, .on, .on]) =
        .ok [.on, .off, .on, .on] := by
  have hresult : bridgeOnBoundedShortOffRuns interleavedSeconds = .ok [.on, .off, .on, .on] := by
    decide +kernel
  obtain ⟨hrule, -, hagain⟩ := (bridgeOnBoundedShortOffRuns_spec interleavedSeconds).2 _ hresult
  exact ⟨hrule, hagain⟩

end Chronicle.Adapters
