import Mathlib.Data.List.Chain
import Chronicle.Library.Tiling
import Chronicle.Matcher.OverlapSweep

/-!
# The layers of overlapping sessions

Each pass of the sweep acts on one session at a time. Between two passes, the pieces of a running
session tile it up to its current segment, and the segment has the layer the pointwise rule gives:
primary where the session has the greatest start, then index, among the open ones.
-/

namespace Chronicle.Matcher

open Chronicle.Library.StableSort Chronicle.Library.Tiling

/-! ## One session's view of the sweep -/

/-- What the sweep holds for one session. -/
structure SessionView where
  segment : Option (Int × UsageLayer)
  pieces : List LayeredSession

/-- The segment and the emitted pieces of a session. -/
def Sweep.view (s : Sweep) (i : Nat) : SessionView :=
  ⟨s.activeSegments i, s.out.filter fun row => row.sessionIndex = i⟩

/-- The session stops. -/
def SessionView.close (timestamp : Int) (i : Nat) (v : SessionView) : SessionView :=
  ⟨none, v.pieces ++ (v.segment.map (emitPiece i timestamp)).getD []⟩

/-- The session changes to a layer. -/
def SessionView.transition (timestamp : Int) (i : Nat) (nextLayer : UsageLayer)
    (v : SessionView) : SessionView :=
  match v.segment with
  | none => v
  | some segment =>
      if segment.2 = nextLayer then v
      else ⟨some (timestamp, nextLayer), v.pieces ++ emitPiece i timestamp segment⟩

variable {starts stops : Nat → Int} {timestamp : Int} {i j n : Nat} {s : Sweep}

theorem filter_emitPiece (i j : Nat) (timestamp : Int) (segment : Int × UsageLayer) :
    (emitPiece j timestamp segment).filter (fun row => row.sessionIndex = i) =
      if i = j then emitPiece j timestamp segment else [] := by
  unfold emitPiece
  by_cases hlong : timestamp > segment.1 <;> by_cases hij : i = j
  · simp [hlong, hij]
  · simp [hlong, hij, Ne.symm hij]
  · simp [hlong]
  · simp [hlong]

theorem view_closeSession (i j : Nat) :
    (s.closeSession starts timestamp j).view i =
      if i = j then (s.view i).close timestamp i else s.view i := by
  unfold Sweep.closeSession Sweep.view SessionView.close
  rcases eq_or_ne i j with rfl | hne
  · cases s.activeSegments i <;> simp [filter_emitPiece]
  · cases s.activeSegments j <;> simp [hne, filter_emitPiece]

theorem view_transition (i j : Nat) (nextLayer : UsageLayer) :
    (s.transition j nextLayer timestamp).view i =
      if i = j then (s.view i).transition timestamp i nextLayer else s.view i := by
  unfold Sweep.transition Sweep.view SessionView.transition
  rcases eq_or_ne i j with rfl | hne
  · cases hsegment : s.activeSegments i with
    | none => simp [hsegment]
    | some segment =>
        by_cases hlayer : segment.2 = nextLayer <;> simp [hsegment, hlayer, filter_emitPiece]
  · cases hsegment : s.activeSegments j with
    | none => simp [hne]
    | some segment =>
        by_cases hlayer : segment.2 = nextLayer <;> simp [hne, hlayer, filter_emitPiece]

/-- The first inner loop closes exactly the sessions of the list that have stopped. -/
theorem closeStopped_spec (starts : Nat → Int) (timestamp : Int) {pending : List Nat}
    (hnodup : pending.Nodup) (hsorted : pending.Pairwise fun a b => stops a ≤ stops b) (s : Sweep) :
    let s' := s.closeStopped starts stops timestamp pending
    (∀ i, s'.view i =
      if i ∈ pending ∧ stops i ≤ timestamp then (s.view i).close timestamp i else s.view i) ∧
    (∀ key, key ∈ s'.openSessions ↔ key ∈ s.openSessions ∧
      ∀ i ∈ pending, stops i ≤ timestamp → key ≠ toLex (starts i, i)) ∧
    s'.pendingStarts = s.pendingStarts ∧ s'.pendingStops.Sublist pending ∧
    ∀ i, i ∈ s'.pendingStops ↔ i ∈ pending ∧ timestamp < stops i := by
  induction pending generalizing s with
  | nil => simp [Sweep.closeStopped, Sweep.view]
  | cons first rest ih =>
      obtain ⟨hfirst, hrest⟩ := List.pairwise_cons.mp hsorted
      obtain ⟨hnew, hnodup⟩ := List.nodup_cons.mp hnodup
      unfold Sweep.closeStopped
      split
      · rename_i hstopped
        obtain ⟨hview, hopen, hstarts, hsublist, hstops⟩ :=
          ih hnodup hrest (s.closeSession starts timestamp first)
        refine ⟨fun i => ?_, fun key => ?_, hstarts, hsublist.cons first, fun i => ?_⟩
        · rw [hview, view_closeSession]
          rcases eq_or_ne i first with rfl | hne
          · simp [hnew, hstopped]
          · simp [hne]
        · rw [hopen]
          simp only [Sweep.closeSession, Finset.mem_erase, List.forall_mem_cons, hstopped,
            forall_const]
          tauto
        · rw [hstops]
          rcases eq_or_ne i first with rfl | hne
          · simp [hnew, hstopped]
          · simp [hne]
      · rename_i hahead
        have hall : ∀ i ∈ first :: rest, timestamp < stops i := by
          intro i hi
          rcases List.mem_cons.mp hi with rfl | hi
          · omega
          · have := hfirst i hi
            omega
        refine ⟨fun i => ?_, fun key => ?_, rfl, List.Sublist.refl _, fun i => ?_⟩
        · rw [if_neg fun h => absurd (hall i h.1) (not_lt.mpr h.2)]
          rfl
        · simp only [iff_self_and]
          exact fun _ i hi hstopped => absurd (hall i hi) (not_lt.mpr hstopped)
        · exact (and_iff_left_of_imp (hall i)).symm

/-- The second inner loop opens exactly the sessions of the list that have started and last. -/
theorem openStarted_spec (stops : Nat → Int) (timestamp : Int) {pending : List Nat}
    (hsorted : pending.Pairwise fun a b => starts a ≤ starts b) (s : Sweep)
    (startedNow : List Nat) :
    let result := s.openStarted starts stops timestamp pending startedNow
    result.1.activeSegments = s.activeSegments ∧ result.1.out = s.out ∧
    (∀ key, key ∈ result.1.openSessions ↔ key ∈ s.openSessions ∨
      ∃ i ∈ pending, starts i ≤ timestamp ∧ timestamp < stops i ∧ key = toLex (starts i, i)) ∧
    result.1.pendingStops = s.pendingStops ∧ result.1.pendingStarts.Sublist pending ∧
    (∀ i, i ∈ result.1.pendingStarts ↔ i ∈ pending ∧ timestamp < starts i) ∧
    ∀ i, i ∈ result.2 ↔
      i ∈ startedNow ∨ i ∈ pending ∧ starts i ≤ timestamp ∧ timestamp < stops i := by
  induction pending generalizing s startedNow with
  | nil => simp [Sweep.openStarted]
  | cons first rest ih =>
      obtain ⟨hfirst, hrest⟩ := List.pairwise_cons.mp hsorted
      unfold Sweep.openStarted
      split
      · rename_i hstarted
        split
        · rename_i hlasts
          obtain ⟨hsegments, hout, hopen, hstops, hsublist, hstarts, hnow⟩ := ih hrest
            { s with openSessions := insert (toLex (starts first, first)) s.openSessions }
            (startedNow ++ [first])
          refine ⟨hsegments, hout, fun key => ?_, hstops, hsublist.cons first, fun i => ?_,
            fun i => ?_⟩
          · rw [hopen]
            simp only [Finset.mem_insert, List.exists_mem_cons_iff]
            tauto
          · rw [hstarts, List.mem_cons]
            exact and_congr_left fun h => (or_iff_right (by rintro rfl; omega)).symm
          · rw [hnow, List.mem_append, List.mem_singleton, List.mem_cons]
            constructor
            · rintro ((hi | rfl) | ⟨hi, hbounds⟩)
              · exact Or.inl hi
              · exact Or.inr ⟨Or.inl rfl, hstarted, hlasts⟩
              · exact Or.inr ⟨Or.inr hi, hbounds⟩
            · tauto
        · rename_i hshort
          obtain ⟨hsegments, hout, hopen, hstops, hsublist, hstarts, hnow⟩ := ih hrest s startedNow
          refine ⟨hsegments, hout, fun key => ?_, hstops, hsublist.cons first, fun i => ?_,
            fun i => ?_⟩
          · rw [hopen]
            simp only [List.exists_mem_cons_iff]
            tauto
          · rw [hstarts, List.mem_cons]
            exact and_congr_left fun h => (or_iff_right (by rintro rfl; omega)).symm
          · rw [hnow, List.mem_cons]
            refine or_congr_right (and_congr_left fun h => (or_iff_right ?_).symm)
            rintro rfl
            exact hshort h.2
      · rename_i hahead
        have hall : ∀ i ∈ first :: rest, timestamp < starts i := by
          intro i hi
          rcases List.mem_cons.mp hi with rfl | hi
          · omega
          · have := hfirst i hi
            omega
        refine ⟨rfl, rfl, fun key => ?_, rfl, List.Sublist.refl _, fun i => ?_, fun i => ?_⟩
        · refine (or_iff_left ?_).symm
          rintro ⟨i, hi, hstarted, -⟩
          exact absurd (hall i hi) (not_lt.mpr hstarted)
        · exact (and_iff_left_of_imp (hall i)).symm
        · refine (or_iff_left ?_).symm
          rintro ⟨hi, hstarted, -⟩
          exact absurd (hall i hi) (not_lt.mpr hstarted)

/-- What `transition` leaves alone. -/
theorem transition_frame (j : Nat) (nextLayer : UsageLayer) :
    (s.transition j nextLayer timestamp).openSessions = s.openSessions ∧
      (s.transition j nextLayer timestamp).pendingStarts = s.pendingStarts ∧
      (s.transition j nextLayer timestamp).pendingStops = s.pendingStops := by
  unfold Sweep.transition
  split
  · exact ⟨rfl, rfl, rfl⟩
  · split <;> exact ⟨rfl, rfl, rfl⟩

/-- The layer change as one session sees it. -/
def SessionView.changeNewest (timestamp : Int) (i : Nat) (previous current : Option Nat)
    (v : SessionView) : SessionView :=
  if previous = current then v
  else if some i = previous then v.transition timestamp i .secondary
  else if some i = current then v.transition timestamp i .primary
  else v

theorem view_changeNewest (i : Nat) (previous current : Option Nat) :
    (s.changeNewest timestamp previous current).view i =
      (s.view i).changeNewest timestamp i previous current := by
  unfold Sweep.changeNewest SessionView.changeNewest
  by_cases hsame : previous = current
  · simp [hsame]
  · cases previous with
    | none =>
        cases current with
        | none => exact absurd rfl hsame
        | some k => simp [view_transition]
    | some j =>
        cases current with
        | none => simp [view_transition]
        | some k =>
            have hne : j ≠ k := fun h => hsame (congrArg some h)
            simp only [ne_eq, hsame, not_false_eq_true, if_true, if_false, view_transition,
              Option.some.injEq]
            rcases eq_or_ne i k with rfl | hik
            · simp [hne.symm]
            · simp [hik]

theorem changeNewest_frame (s : Sweep) (timestamp : Int) (previous current : Option Nat) :
    (s.changeNewest timestamp previous current).openSessions = s.openSessions ∧
      (s.changeNewest timestamp previous current).pendingStarts = s.pendingStarts ∧
      (s.changeNewest timestamp previous current).pendingStops = s.pendingStops := by
  unfold Sweep.changeNewest
  split
  · cases previous <;> cases current <;> simp [transition_frame]
  · exact ⟨rfl, rfl, rfl⟩

/-- The opened sessions begin their segments; nothing else changes. -/
theorem beginSegments_spec (timestamp : Int) (current : Option Nat) (startedNow : List Nat)
    (s : Sweep) :
    let s' := s.beginSegments timestamp current startedNow
    (∀ i, s'.view i = if i ∈ startedNow then
      ⟨some (timestamp, if some i = current then .primary else .secondary), (s.view i).pieces⟩
      else s.view i) ∧
    s'.openSessions = s.openSessions ∧ s'.pendingStarts = s.pendingStarts ∧
    s'.pendingStops = s.pendingStops := by
  unfold Sweep.beginSegments
  induction startedNow generalizing s with
  | nil => simp
  | cons first rest ih =>
      obtain ⟨hview, hopen, hstarts, hstops⟩ := ih
        { s with
          activeSegments := Function.update s.activeSegments first
            (some (timestamp, if some first = current then .primary else .secondary)) }
      refine ⟨fun i => ?_, hopen, hstarts, hstops⟩
      rw [List.foldl_cons, hview]
      rcases eq_or_ne i first with rfl | hne
      · by_cases hi : i ∈ rest <;> simp [hi, Sweep.view]
      · simp [hne, Sweep.view]

theorem newest_congr {other : Sweep} (h : s.openSessions = other.openSessions) :
    s.newest = other.newest := by
  unfold Sweep.newest
  rw [h]

/-- One pass of the outer loop, as each session sees it. -/
theorem step_spec (hnodup : s.pendingStops.Nodup)
    (hstops : s.pendingStops.Pairwise fun a b => stops a ≤ stops b)
    (hstarts : s.pendingStarts.Pairwise fun a b => starts a ≤ starts b) (timestamp : Int) :
    let s' := s.step starts stops timestamp
    (∀ i, s'.view i =
      let closed := if i ∈ s.pendingStops ∧ stops i ≤ timestamp then (s.view i).close timestamp i
        else s.view i
      let changed := closed.changeNewest timestamp i s.newest s'.newest
      if i ∈ s.pendingStarts ∧ starts i ≤ timestamp ∧ timestamp < stops i then
        ⟨some (timestamp, if some i = s'.newest then .primary else .secondary), changed.pieces⟩
      else changed) ∧
    (∀ key, key ∈ s'.openSessions ↔
      (key ∈ s.openSessions ∧
        ∀ i ∈ s.pendingStops, stops i ≤ timestamp → key ≠ toLex (starts i, i)) ∨
      ∃ i ∈ s.pendingStarts, starts i ≤ timestamp ∧ timestamp < stops i ∧
        key = toLex (starts i, i)) ∧
    s'.pendingStarts.Sublist s.pendingStarts ∧ s'.pendingStops.Sublist s.pendingStops ∧
    (∀ i, i ∈ s'.pendingStarts ↔ i ∈ s.pendingStarts ∧ timestamp < starts i) ∧
    ∀ i, i ∈ s'.pendingStops ↔ i ∈ s.pendingStops ∧ timestamp < stops i := by
  intro s'
  obtain ⟨hclosed, hopen, hstartsFrame, hstopsSublist, hstopsAhead⟩ :=
    closeStopped_spec starts timestamp hnodup hstops s
  obtain ⟨hsegments, hout, hopen', hstopsFrame, hstartsSublist, hstartsAhead, hnow⟩ :=
    openStarted_spec stops timestamp hstarts
      (s.closeStopped starts stops timestamp s.pendingStops) []
  have hstep : s' = s.step starts stops timestamp := rfl
  -- the step closes, opens, hands over the newest session and begins segments, in this order
  unfold Sweep.step at hstep
  dsimp only at hstep
  rw [hstartsFrame] at hstep
  generalize s.closeStopped starts stops timestamp s.pendingStops = closed at *
  generalize closed.openStarted starts stops timestamp s.pendingStarts [] = opened at *
  obtain ⟨hbegun, hopenFrame, hstartsFrame', hstopsFrame'⟩ := beginSegments_spec timestamp
    opened.1.newest opened.2 (opened.1.changeNewest timestamp s.newest opened.1.newest)
  obtain ⟨hopenKept, hstartsKept, hstopsKept⟩ := changeNewest_frame opened.1 timestamp
    s.newest opened.1.newest
  rw [← hstep] at hbegun hopenFrame hstartsFrame' hstopsFrame'
  have hnewest : s'.newest = opened.1.newest := newest_congr (hopenFrame.trans hopenKept)
  refine ⟨fun i => ?_, fun key => ?_, ?_, ?_, fun i => ?_, fun i => ?_⟩
  · have hsame : opened.1.view i = closed.view i := by simp only [Sweep.view, hsegments, hout]
    rw [hbegun, view_changeNewest, hsame, hclosed, hnewest]
    simp only [hnow, List.not_mem_nil, false_or]
  · rw [hopenFrame, hopenKept, hopen', hopen]
  · rwa [hstartsFrame', hstartsKept]
  · rwa [hstopsFrame', hstopsKept, hstopsFrame]
  · rw [hstartsFrame', hstartsKept, hstartsAhead]
  · rw [hstopsFrame', hstopsKept, hstopsFrame, hstopsAhead]

/-! ## The pointwise rule -/

/-- The session is open at the instant. -/
def OpenAt (starts stops : Nat → Int) (n : Nat) (t : Int) (i : Nat) : Prop :=
  i < n ∧ starts i ≤ t ∧ t < stops i

/-- The session has the greatest start, then index, among those open at the instant. -/
def PrimaryAt (starts stops : Nat → Int) (n : Nat) (t : Int) (i : Nat) : Prop :=
  OpenAt starts stops n t i ∧
    ∀ j, OpenAt starts stops n t j → toLex (starts j, j) ≤ toLex (starts i, i)

/-- The pieces tile the interval, alternate in layer, and follow the pointwise rule. -/
structure Layered (starts stops : Nat → Int) (n i : Nat) (lower : Int)
    (pieces : List LayeredSession) (upper : Int) : Prop where
  tiles : Tiles LayeredSession.startNs LayeredSession.stopNs lower pieces upper
  alternates : pieces.IsChain fun a b => a.layer ≠ b.layer
  primary : ∀ row ∈ pieces, ∀ t, row.startNs ≤ t → t < row.stopNs →
    (row.layer = .primary ↔ PrimaryAt starts stops n t i)

/-- Where the sweep stands with a session once the bounds up to `now` are processed. -/
inductive SessionState (starts stops : Nat → Int) (n i : Nat) (now : Int) : SessionView → Prop where
  | pending (hstart : now < starts i) : SessionState starts stops n i now ⟨none, []⟩
  | running {segmentStart : Int} {layer : UsageLayer} {pieces : List LayeredSession}
      (hstart : starts i ≤ now) (hstop : now < stops i) (hsegment : segmentStart ≤ now)
      (hpieces : Layered starts stops n i (starts i) pieces segmentStart)
      (hlast : ∀ last ∈ pieces.getLast?, last.layer ≠ layer)
      (hlayer : ∀ t, segmentStart ≤ t → t ≤ now →
        (layer = .primary ↔ PrimaryAt starts stops n t i)) :
      SessionState starts stops n i now ⟨some (segmentStart, layer), pieces⟩
  | finished {pieces : List LayeredSession} (hstop : stops i ≤ now)
      (hpieces : Layered starts stops n i (starts i) pieces (stops i)) :
      SessionState starts stops n i now ⟨none, pieces⟩

/-- The invariant of the sweep once the bounds up to `now` are processed. -/
structure Settled (starts stops : Nat → Int) (n : Nat) (now : Int) (s : Sweep) : Prop where
  startsSorted : s.pendingStarts.Pairwise fun a b => starts a ≤ starts b
  stopsSorted : s.pendingStops.Pairwise fun a b => stops a ≤ stops b
  stopsNodup : s.pendingStops.Nodup
  startsAhead : ∀ i, i ∈ s.pendingStarts ↔ i < n ∧ now < starts i
  stopsAhead : ∀ i, i ∈ s.pendingStops ↔ i < n ∧ now < stops i
  openNow : ∀ key, key ∈ s.openSessions ↔
    ∃ i, OpenAt starts stops n now i ∧ key = toLex (starts i, i)
  sessions : ∀ i < n, SessionState starts stops n i now (s.view i)
  others : ∀ i, n ≤ i → s.view i = ⟨none, []⟩

/-- The newest open session is the primary one. -/
theorem newest_eq_some (hopen : ∀ key, key ∈ s.openSessions ↔
    ∃ i, OpenAt starts stops n timestamp i ∧ key = toLex (starts i, i)) :
    s.newest = some i ↔ PrimaryAt starts stops n timestamp i := by
  unfold Sweep.newest
  constructor
  · intro h
    split at h
    · cases h
    · rename_i key hmax
      obtain ⟨k, hk, rfl⟩ := (hopen key).mp (Finset.mem_of_max hmax)
      cases h
      exact ⟨hk, fun j hj => Finset.le_max_of_eq ((hopen _).mpr ⟨j, hj, rfl⟩) hmax⟩
  · rintro ⟨hi, hgreatest⟩
    have hmem := (hopen _).mpr ⟨i, hi, rfl⟩
    split
    · rename_i hmax
      rw [Finset.max_eq_bot.mp hmax] at hmem
      exact absurd hmem (Finset.notMem_empty _)
    · rename_i key hmax
      obtain ⟨k, hk, rfl⟩ := (hopen key).mp (Finset.mem_of_max hmax)
      have heq := le_antisymm (hgreatest k hk) (Finset.le_max_of_eq hmem hmax)
      exact congrArg (fun key => some (ofLex key).2) heq

section Pass

variable {now segmentStart : Int} {layer : UsageLayer} {pieces : List LayeredSession}

theorem Layered.nil {lower : Int} : Layered starts stops n i lower [] lower :=
  ⟨rfl, List.isChain_nil, fun _ h => absurd h List.not_mem_nil⟩

/-- A segment that ends becomes the last piece. -/
theorem Layered.snoc {lower : Int} (h : Layered starts stops n i lower pieces segmentStart)
    (hlast : ∀ last ∈ pieces.getLast?, last.layer ≠ layer) (hlt : segmentStart < timestamp)
    (hlayer : ∀ t, segmentStart ≤ t → t < timestamp →
      (layer = .primary ↔ PrimaryAt starts stops n t i)) :
    Layered starts stops n i lower (pieces ++ emitPiece i timestamp (segmentStart, layer))
      timestamp := by
  have hpiece : emitPiece i timestamp (segmentStart, layer) =
      [⟨i, segmentStart, timestamp, layer⟩] := if_pos hlt
  rw [hpiece]
  refine ⟨h.tiles.append ⟨rfl, hlt, rfl⟩, ?_, fun row hrow => ?_⟩
  · refine h.alternates.append (List.isChain_singleton _) fun last hmem next hnext => ?_
    rw [← Option.some.inj hnext]
    exact hlast last hmem
  · rcases List.mem_append.mp hrow with hrow | hrow
    · exact h.primary row hrow
    · rw [List.mem_singleton.mp hrow]
      exact hlayer

/-- A session without a segment sees no change of layer. -/
theorem changeNewest_of_none (previous current : Option Nat) :
    SessionView.changeNewest timestamp i previous current ⟨none, pieces⟩ = ⟨none, pieces⟩ := by
  unfold SessionView.changeNewest SessionView.transition
  split_ifs <;> rfl

/-- A running session changes to the layer that its rank among the open sessions gives. -/
theorem changeNewest_eq_transition {previous current : Option Nat}
    (hlayer : layer = .primary ↔ previous = some i) :
    SessionView.changeNewest timestamp i previous current ⟨some (segmentStart, layer), pieces⟩ =
      SessionView.transition timestamp i (if some i = current then .primary else .secondary)
        ⟨some (segmentStart, layer), pieces⟩ := by
  unfold SessionView.changeNewest SessionView.transition
  by_cases hprevious : previous = some i
  · obtain rfl := hlayer.mpr hprevious
    by_cases hcurrent : some i = current
    · simp [hprevious, hcurrent]
    · simp [hprevious, hcurrent]
  · have hsecondary : layer = .secondary := by
      cases layer with
      | primary => exact absurd (hlayer.mp rfl) hprevious
      | secondary => rfl
    by_cases hcurrent : some i = current
    · have hne : previous ≠ current := fun h => hprevious (h.trans hcurrent.symm)
      simp [← hcurrent, Ne.symm hprevious, hprevious, hsecondary]
    · simp [hcurrent, Ne.symm hprevious, hsecondary]

/-- Between two bounds the open sessions stay the same. -/
theorem openAt_stretch {t : Int} (hstarts : ∀ i < n, now < starts i → timestamp ≤ starts i)
    (hstops : ∀ i < n, now < stops i → timestamp ≤ stops i) (hlower : now ≤ t)
    (hupper : t < timestamp) : OpenAt starts stops n t i ↔ OpenAt starts stops n now i := by
  unfold OpenAt
  constructor
  · rintro ⟨hi, hstart, hstop⟩
    have := hstarts i hi
    exact ⟨hi, by omega, by omega⟩
  · rintro ⟨hi, hstart, hstop⟩
    have := hstops i hi
    exact ⟨hi, by omega, by omega⟩

theorem primaryAt_stretch {t : Int} (hstarts : ∀ i < n, now < starts i → timestamp ≤ starts i)
    (hstops : ∀ i < n, now < stops i → timestamp ≤ stops i) (hlower : now ≤ t)
    (hupper : t < timestamp) :
    PrimaryAt starts stops n t i ↔ PrimaryAt starts stops n now i := by
  simp only [PrimaryAt, openAt_stretch hstarts hstops hlower hupper]

/-- One pass moves a session to its next state. -/
theorem SessionState.step {v : SessionView} {previous current : Option Nat}
    (h : SessionState starts stops n i now v) (hi : i < n) (hlt : now < timestamp)
    (hstarts : ∀ i < n, now < starts i → timestamp ≤ starts i)
    (hstops : ∀ i < n, now < stops i → timestamp ≤ stops i) (hle : starts i ≤ stops i)
    (hprevious : previous = some i ↔ PrimaryAt starts stops n now i)
    (hcurrent : current = some i ↔ PrimaryAt starts stops n timestamp i) :
    SessionState starts stops n i timestamp
      (let closed := if now < stops i ∧ stops i ≤ timestamp then v.close timestamp i else v
      let changed := closed.changeNewest timestamp i previous current
      if now < starts i ∧ starts i ≤ timestamp ∧ timestamp < stops i then
        ⟨some (timestamp, if some i = current then .primary else .secondary), changed.pieces⟩
      else changed) := by
  have hnewLayer : (if some i = current then UsageLayer.primary else .secondary) = .primary ↔
      PrimaryAt starts stops n timestamp i := by
    rw [← hcurrent, eq_comm (a := current)]
    by_cases hnewest : some i = current <;> simp [hnewest]
  cases h with
  | pending hstart =>
      have hahead := hstarts i hi hstart
      have hclose : SessionView.close timestamp i ⟨none, []⟩ = ⟨none, []⟩ := rfl
      simp only [hclose, ite_self, changeNewest_of_none]
      split
      · rename_i hopens
        have heq : starts i = timestamp := by omega
        exact .running hopens.2.1 hopens.2.2 le_rfl (heq ▸ Layered.nil) (by simp)
          fun t hlower hupper => le_antisymm hlower hupper ▸ hnewLayer
      · rcases lt_or_ge timestamp (starts i) with hlater | hstarted
        · exact .pending hlater
        · have heq : stops i = starts i := by omega
          exact .finished (by omega) (heq ▸ Layered.nil)
  | @running segmentStart layer pieces hstart hstop hsegment hpieces hlast hlayer =>
      have hstretch : ∀ t, segmentStart ≤ t → t < timestamp →
          (layer = .primary ↔ PrimaryAt starts stops n t i) := by
        intro t hlower hupper
        rcases le_total t now with hpast | hfuture
        · exact hlayer t hlower hpast
        · rw [primaryAt_stretch hstarts hstops hfuture hupper]
          exact hlayer now hsegment le_rfl
      have hsnoc := hpieces.snoc hlast (by omega) hstretch
      rcases le_or_gt (stops i) timestamp with hstopped | hruns
      · have heq : stops i = timestamp := by
          have := hstops i hi hstop
          omega
        simp only [hstop, hstopped, and_self, if_true, SessionView.close, Option.map_some,
          Option.getD_some, changeNewest_of_none]
        rw [if_neg (by omega)]
        exact .finished hstopped (heq ▸ hsnoc)
      · simp only [not_le.mpr hruns, and_false, if_false]
        rw [if_neg (by omega), changeNewest_eq_transition
          ((hlayer now hsegment le_rfl).trans hprevious.symm)]
        generalize (if some i = current then UsageLayer.primary else .secondary) = newLayer at *
        unfold SessionView.transition
        dsimp only
        split
        · -- the session keeps its segment
          rename_i hsame
          refine .running (by omega) hruns (by omega) hpieces hlast fun t hlower hupper => ?_
          rcases lt_or_eq_of_le hupper with hbefore | rfl
          · exact hstretch t hlower hbefore
          · exact hsame ▸ hnewLayer
        · rename_i hchanged
          refine .running (by omega) hruns le_rfl hsnoc ?_ fun t hlower hupper =>
            le_antisymm hlower hupper ▸ hnewLayer
          intro last hlast
          rw [emitPiece, if_pos (by omega), List.getLast?_concat] at hlast
          rw [← Option.some.inj hlast]
          exact hchanged
  | finished hstop hpieces =>
      rw [if_neg (by omega), if_neg (by omega), changeNewest_of_none]
      exact .finished (by omega) hpieces

/-- In a sorted list the head is the least element. -/
theorem le_of_head? {key : Nat → Int} {l : List Nat} (hsorted : l.Pairwise fun a b => key a ≤ key b)
    (hhead : l.head? = some i) (hj : j ∈ l) : key i ≤ key j := by
  cases l with
  | nil => cases hhead
  | cons first rest =>
      obtain rfl := Option.some.inj hhead
      rcases List.mem_cons.mp hj with rfl | hj
      · exact le_rfl
      · exact List.rel_of_pairwise_cons hsorted hj

/-- The next bound lies ahead, no bound comes before it, and one of the lists holds it. -/
theorem nextTimestamp_eq_some (h : Settled starts stops n now s)
    (hnext : s.nextTimestamp starts stops = some timestamp) :
    now < timestamp ∧ (∀ i < n, now < starts i → timestamp ≤ starts i) ∧
      (∀ i < n, now < stops i → timestamp ≤ stops i) ∧
      ((∃ i ∈ s.pendingStarts, starts i = timestamp) ∨ ∃ i ∈ s.pendingStops, stops i = timestamp) := by
  have hstarts : ∀ {k}, s.pendingStarts.head? = some k → k ∈ s.pendingStarts ∧ now < starts k ∧
      ∀ i < n, now < starts i → starts k ≤ starts i := fun hk =>
    ⟨List.mem_of_head? hk, ((h.startsAhead _).mp (List.mem_of_head? hk)).2, fun i hi hahead =>
      le_of_head? h.startsSorted hk ((h.startsAhead i).mpr ⟨hi, hahead⟩)⟩
  have hstops : ∀ {k}, s.pendingStops.head? = some k → k ∈ s.pendingStops ∧ now < stops k ∧
      ∀ i < n, now < stops i → stops k ≤ stops i := fun hk =>
    ⟨List.mem_of_head? hk, ((h.stopsAhead _).mp (List.mem_of_head? hk)).2, fun i hi hahead =>
      le_of_head? h.stopsSorted hk ((h.stopsAhead i).mpr ⟨hi, hahead⟩)⟩
  have hnoStarts : s.pendingStarts.head? = none → ∀ i < n, ¬ now < starts i := fun hnone i hi hahead =>
    List.not_mem_nil (List.head?_eq_none_iff.mp hnone ▸ (h.startsAhead i).mpr ⟨hi, hahead⟩)
  have hnoStops : s.pendingStops.head? = none → ∀ i < n, ¬ now < stops i := fun hnone i hi hahead =>
    List.not_mem_nil (List.head?_eq_none_iff.mp hnone ▸ (h.stopsAhead i).mpr ⟨hi, hahead⟩)
  unfold Sweep.nextTimestamp at hnext
  split at hnext
  · rename_i k m hk hm
    obtain rfl := Option.some.inj hnext
    obtain ⟨hkMem, hkNow, hkLeast⟩ := hstarts hk
    obtain ⟨hmMem, hmNow, hmLeast⟩ := hstops hm
    refine ⟨lt_min hkNow hmNow, fun i hi hahead => (min_le_left _ _).trans (hkLeast i hi hahead),
      fun i hi hahead => (min_le_right _ _).trans (hmLeast i hi hahead), ?_⟩
    rcases le_total (starts k) (stops m) with hle | hle
    · exact Or.inl ⟨k, hkMem, (min_eq_left hle).symm⟩
    · exact Or.inr ⟨m, hmMem, (min_eq_right hle).symm⟩
  · rename_i k hk hm
    obtain rfl := Option.some.inj hnext
    obtain ⟨hkMem, hkNow, hkLeast⟩ := hstarts hk
    exact ⟨hkNow, hkLeast, fun i hi hahead => absurd hahead (hnoStops hm i hi), Or.inl ⟨k, hkMem, rfl⟩⟩
  · rename_i m hk hm
    obtain rfl := Option.some.inj hnext
    obtain ⟨hmMem, hmNow, hmLeast⟩ := hstops hm
    exact ⟨hmNow, fun i hi hahead => absurd hahead (hnoStarts hk i hi), hmLeast, Or.inr ⟨m, hmMem, rfl⟩⟩
  · cases hnext

theorem length_lt_of_missing {l l' : List Nat} (hsublist : l'.Sublist l) (hi : i ∈ l)
    (hgone : i ∉ l') : l'.length < l.length := by
  refine lt_of_le_of_ne hsublist.length_le fun heq => hgone ?_
  rwa [hsublist.eq_of_length heq]

/-- One pass keeps the invariant and consumes a bound. -/
theorem Settled.step (h : Settled starts stops n now s) (hle : ∀ i < n, starts i ≤ stops i)
    (hnext : s.nextTimestamp starts stops = some timestamp) :
    Settled starts stops n timestamp (s.step starts stops timestamp) ∧
      (s.step starts stops timestamp).pendingStarts.length +
          (s.step starts stops timestamp).pendingStops.length <
        s.pendingStarts.length + s.pendingStops.length := by
  obtain ⟨hlt, hstarts, hstops, hbound⟩ := nextTimestamp_eq_some h hnext
  obtain ⟨hview, hopen, hstartsSublist, hstopsSublist, hstartsAhead, hstopsAhead⟩ :=
    step_spec h.stopsNodup h.stopsSorted h.startsSorted timestamp
  generalize s.step starts stops timestamp = s' at *
  -- the sessions open after the step are those that stretch over its timestamp
  have hopenNow : ∀ key, key ∈ s'.openSessions ↔
      ∃ i, OpenAt starts stops n timestamp i ∧ key = toLex (starts i, i) := by
    intro key
    rw [hopen, h.openNow]
    constructor
    · rintro (⟨⟨i, ⟨hi, hstart, hstop⟩, rfl⟩, hkept⟩ | ⟨i, hi, hstart, hstop, rfl⟩)
      · refine ⟨i, ⟨hi, by omega, ?_⟩, rfl⟩
        by_contra hstopped
        exact hkept i ((h.stopsAhead i).mpr ⟨hi, hstop⟩) (not_lt.mp hstopped) rfl
      · exact ⟨i, ⟨((h.startsAhead i).mp hi).1, hstart, hstop⟩, rfl⟩
    · rintro ⟨i, ⟨hi, hstart, hstop⟩, rfl⟩
      rcases le_or_gt (starts i) now with hold | hnew
      · refine Or.inl ⟨⟨i, ⟨hi, hold, by omega⟩, rfl⟩, fun k _ hstopped heq => ?_⟩
        obtain rfl : i = k := congrArg (fun key : Int ×ₗ Nat => (ofLex key).2) heq
        omega
      · exact Or.inr ⟨i, (h.startsAhead i).mpr ⟨hi, hnew⟩, hstart, hstop, rfl⟩
  refine ⟨⟨h.startsSorted.sublist hstartsSublist, h.stopsSorted.sublist hstopsSublist,
    h.stopsNodup.sublist hstopsSublist, fun i => ?_, fun i => ?_, hopenNow, fun i hi => ?_,
    fun i hi => ?_⟩, ?_⟩
  · rw [hstartsAhead, h.startsAhead]
    exact ⟨fun ⟨⟨hi, _⟩, hahead⟩ => ⟨hi, hahead⟩, fun ⟨hi, hahead⟩ => ⟨⟨hi, hlt.trans hahead⟩, hahead⟩⟩
  · rw [hstopsAhead, h.stopsAhead]
    exact ⟨fun ⟨⟨hi, _⟩, hahead⟩ => ⟨hi, hahead⟩, fun ⟨hi, hahead⟩ => ⟨⟨hi, hlt.trans hahead⟩, hahead⟩⟩
  · have hstate := (h.sessions i hi).step hi hlt hstarts hstops (hle i hi)
      (newest_eq_some h.openNow) (newest_eq_some hopenNow)
    rw [hview]
    simpa only [h.startsAhead, h.stopsAhead, hi, true_and] using hstate
  · rw [hview, h.others i hi]
    simp only [h.startsAhead, h.stopsAhead, not_lt.mpr hi, false_and, if_false,
      changeNewest_of_none]
  · -- the timestamp is an end that was pending, and that end leaves its list
    rcases hbound with ⟨i, hi, heq⟩ | ⟨i, hi, heq⟩
    · have hgone : i ∉ s'.pendingStarts := fun hmem => by
        have := ((hstartsAhead i).mp hmem).2
        omega
      exact Nat.add_lt_add_of_lt_of_le (length_lt_of_missing hstartsSublist hi hgone)
        hstopsSublist.length_le
    · have hgone : i ∉ s'.pendingStops := fun hmem => by
        have := ((hstopsAhead i).mp hmem).2
        omega
      exact Nat.add_lt_add_of_le_of_lt hstartsSublist.length_le
        (length_lt_of_missing hstopsSublist hi hgone)

/-- With enough fuel the sweep ends with every bound processed. -/
theorem Settled.run (fuel : Nat) (h : Settled starts stops n now s)
    (hle : ∀ i < n, starts i ≤ stops i)
    (hfuel : s.pendingStarts.length + s.pendingStops.length ≤ fuel) :
    ∃ last, Settled starts stops n last (s.run starts stops fuel) ∧ ∀ i < n, stops i ≤ last := by
  have hdone : s.pendingStops = [] → ∀ i < n, stops i ≤ now := fun hnone i hi => by
    by_contra hahead
    exact List.not_mem_nil (hnone ▸ (h.stopsAhead i).mpr ⟨hi, not_le.mp hahead⟩)
  induction fuel generalizing s now with
  | zero => exact ⟨now, h, hdone (List.eq_nil_of_length_eq_zero (by omega))⟩
  | succ fuel ih =>
      unfold Sweep.run
      cases hnext : s.nextTimestamp starts stops with
      | none =>
          refine ⟨now, h, hdone (List.head?_eq_none_iff.mp ?_)⟩
          unfold Sweep.nextTimestamp at hnext
          split at hnext <;> simp_all
      | some timestamp =>
          obtain ⟨hstep, hconsumed⟩ := h.step hle hnext
          exact ih hstep (by omega) fun hnone i hi => by
            by_contra hahead
            exact List.not_mem_nil (hnone ▸ (hstep.stopsAhead i).mpr ⟨hi, not_le.mp hahead⟩)

/-- Before the first pass nothing is open, and every bound is ahead of some instant. -/
theorem exists_settled_initial (starts stops : Nat → Int) (n : Nat) :
    ∃ now, Settled starts stops n now (Sweep.initial starts stops n) := by
  obtain ⟨now, hstarts, hstops⟩ : ∃ now, (∀ i < n, now < starts i) ∧ ∀ i < n, now < stops i := by
    induction n with
    | zero => exact ⟨0, by simp, by simp⟩
    | succ n ih =>
        obtain ⟨now, hstarts, hstops⟩ := ih
        refine ⟨min now (min (starts n) (stops n)) - 1, fun i hi => ?_, fun i hi => ?_⟩
        · rcases Nat.lt_succ_iff_lt_or_eq.mp hi with hi | rfl
          · have := hstarts i hi
            omega
          · omega
        · rcases Nat.lt_succ_iff_lt_or_eq.mp hi with hi | rfl
          · have := hstops i hi
            omega
          · omega
  have hsorted : ∀ key : Nat → Int, (sortByKey (fun i => toLex (key i, i)) (List.range n)).Pairwise
      fun a b => key a ≤ key b := fun key =>
    (pairwise_sortByKey _ _).imp fun h => by
      rcases Prod.Lex.toLex_le_toLex.mp h with h | h
      · exact h.le
      · exact h.1.le
  refine ⟨now, ⟨hsorted starts, hsorted stops, (perm_sortByKey _ _).nodup_iff.mpr List.nodup_range,
    fun i => ?_, fun i => ?_, fun key => ?_, fun i hi => .pending (hstarts i hi), fun _ _ => rfl⟩⟩
  · simpa [Sweep.initial] using hstarts i
  · simpa [Sweep.initial] using hstops i
  · refine iff_of_false (Finset.notMem_empty _) ?_
    rintro ⟨i, ⟨hi, hstart, -⟩, -⟩
    exact absurd (hstarts i hi) (not_lt.mpr hstart)

end Pass

/-! ## The output -/

section Output

variable (starts stops n)

/-- The rows of one session. -/
def sessionRows (i : Nat) : List LayeredSession :=
  (sweepRows starts stops n).filter fun row => row.sessionIndex = i

variable {starts stops n}

/-- A session has a row without length exactly if it has no length itself. -/
theorem filter_zeroWidthRows (starts stops : Nat → Int) (n i : Nat) :
    (zeroWidthRows starts stops n).filter (fun row => row.sessionIndex = i) =
      if i < n ∧ starts i = stops i then [⟨i, starts i, stops i, .primary⟩] else [] := by
  unfold zeroWidthRows
  induction n with
  | zero => simp
  | succ n ih =>
      rw [List.range_succ, List.filterMap_append, List.filter_append, ih]
      rcases lt_trichotomy i n with hlt | rfl | hgt
      · by_cases hzero : starts n = stops n <;>
          simp [hzero, hlt, hlt.ne', Nat.lt_succ_of_lt hlt]
      · by_cases hzero : starts i = stops i <;> simp [hzero]
      · by_cases hzero : starts n = stops n <;>
          simp [hzero, hgt.ne, not_lt.mpr hgt.le, not_lt.mpr (Nat.succ_le_of_lt hgt)]

/-- Before the final sort the sweep has processed every bound. -/
theorem exists_settled_sweep (hle : ∀ i < n, starts i ≤ stops i) :
    ∃ last, Settled starts stops n last
      ((Sweep.initial starts stops n).run starts stops (2 * n)) ∧ ∀ i < n, stops i ≤ last := by
  obtain ⟨now, hinitial⟩ := exists_settled_initial starts stops n
  refine hinitial.run (2 * n) hle ?_
  simp only [Sweep.initial, length_sortByKey, List.length_range]
  omega

/-- The rows of one session: the pieces the sweep left, or the row of a session without length. -/
theorem sessionRows_spec (hle : ∀ i < n, starts i ≤ stops i) (hi : i < n) :
    (starts i = stops i → sessionRows starts stops n i = [⟨i, starts i, stops i, .primary⟩]) ∧
    (starts i < stops i →
      Layered starts stops n i (starts i) (sessionRows starts stops n i) (stops i)) := by
  obtain ⟨last, hsettled, hdone⟩ := exists_settled_sweep hle
  have hzero := filter_zeroWidthRows starts stops n i
  have hrows : sessionRows starts stops n i =
      (((Sweep.initial starts stops n).run starts stops (2 * n)).view i).pieces ++
        if starts i = stops i then [⟨i, starts i, stops i, .primary⟩] else [] := by
    rw [sessionRows, sweepRows, List.filter_append, hzero]
    simp only [hi, true_and]
    rfl
  have hstate := hsettled.sessions i hi
  generalize ((Sweep.initial starts stops n).run starts stops (2 * n)).view i = v at *
  cases hstate with
  | pending hstart => exact absurd (hle i hi) (not_le.mpr ((hdone i hi).trans_lt hstart))
  | running _ hstop => exact absurd hstop (not_lt.mpr (hdone i hi))
  | finished hstop hpieces =>
      rw [hrows]
      refine ⟨fun heq => ?_, fun hlt => ?_⟩
      · rw [heq] at hpieces
        rw [hpieces.tiles.eq_nil, if_pos heq]
        rfl
      · rwa [if_neg hlt.ne, List.append_nil]

/-- Every row names one of the sessions. -/
theorem sessionIndex_lt (hle : ∀ i < n, starts i ≤ stops i) {row : LayeredSession}
    (hrow : row ∈ sweepRows starts stops n) : row.sessionIndex < n := by
  rcases List.mem_append.mp hrow with hrow | hrow
  · obtain ⟨last, hsettled, -⟩ := exists_settled_sweep hle
    by_contra hi
    have hmem : row ∈ (((Sweep.initial starts stops n).run starts stops (2 * n)).view
        row.sessionIndex).pieces := List.mem_filter.mpr ⟨hrow, by simp⟩
    rw [hsettled.others _ (not_lt.mp hi)] at hmem
    exact absurd hmem List.not_mem_nil
  · obtain ⟨i, hi, hrow⟩ := List.mem_filterMap.mp hrow
    split at hrow
    · obtain rfl := Option.some.inj hrow
      exact List.mem_range.mp hi
    · cases hrow

/-- Every row of an accepted call names one of its sessions. -/
theorem sessionIndex_lt_of_ok {starts stops : List Int} {sessions : List LayeredSession}
    (h : splitOverlappingSessions starts stops = .ok sessions) {row : LayeredSession}
    (hrow : row ∈ sessions) : row.sessionIndex < starts.length := by
  unfold splitOverlappingSessions at h
  split at h
  · cases h
  split at h
  · cases h
  · next hvalid =>
      cases h
      refine sessionIndex_lt (fun i hi => ?_) (mem_sortByKey.mp hrow)
      simp only [List.any_eq_true, List.mem_range, decide_eq_true_eq, not_exists, not_and] at hvalid
      exact not_lt.mp (hvalid i hi)

/-- The final sort lists the sessions one after another. -/
theorem sortByKey_sweepRows (hle : ∀ i < n, starts i ≤ stops i) :
    sortByKey LayeredSession.key (sweepRows starts stops n) =
      (List.range n).flatMap (sessionRows starts stops n) := by
  have hsorted : (sortByKey LayeredSession.key (sweepRows starts stops n)).Pairwise
      fun a b => a.sessionIndex ≤ b.sessionIndex :=
    (pairwise_sortByKey _ _).imp fun h => by
      rcases Prod.Lex.toLex_le_toLex.mp h with h | h
      · exact h.le
      · exact h.1.le
  rw [eq_flatMap_groups hsorted fun row hrow => sessionIndex_lt hle (mem_sortByKey.mp hrow)]
  refine List.flatMap_congr fun i hi => filter_sortByKey ?_
  -- one session's pieces were emitted in order of their starts
  have hstarts : (sessionRows starts stops n i).Pairwise fun a b => a.startNs ≤ b.startNs := by
    have hi := List.mem_range.mp hi
    obtain ⟨hzero, hpositive⟩ := sessionRows_spec hle hi
    rcases eq_or_lt_of_le (hle i hi) with heq | hlt
    · rw [hzero heq]
      exact List.pairwise_singleton _ _
    · exact (hpositive hlt).tiles.pairwise_lower.imp le_of_lt
  refine hstarts.imp_of_mem fun {a b} ha hb hab => Prod.Lex.toLex_le_toLex.mpr (Or.inr ⟨?_, hab⟩)
  have hindex : ∀ row ∈ sessionRows starts stops n i, row.sessionIndex = i := fun row hrow => by
    simpa using (List.mem_filter.mp hrow).2
  exact (hindex a ha).trans (hindex b hb).symm

/-- Some open session is the primary one. -/
theorem exists_primaryAt {t : Int} (h : ∃ i, OpenAt starts stops n t i) :
    ∃ i, PrimaryAt starts stops n t i := by
  obtain ⟨i, hi⟩ := h
  have hmem : ∀ {j}, j ∈ (Finset.range n).filter (fun j => starts j ≤ t ∧ t < stops j) ↔
      OpenAt starts stops n t j := by simp [OpenAt]
  obtain ⟨k, hk, hgreatest⟩ := Finset.exists_max_image _ (fun j => toLex (starts j, j)) ⟨i, hmem.mpr hi⟩
  exact ⟨k, hmem.mp hk, fun j hj => hgreatest j (hmem.mpr hj)⟩

/-- At most one session is the primary one. -/
theorem PrimaryAt.unique {t : Int} (hi : PrimaryAt starts stops n t i)
    (hj : PrimaryAt starts stops n t j) : i = j :=
  congrArg (fun key : Int ×ₗ Nat => (ofLex key).2) (le_antisymm (hj.2 i hi.1) (hi.2 j hj.1))

/-- Every covered instant lies in exactly one primary row. -/
theorem existsUnique_primary_row (hle : ∀ i < n, starts i ≤ stops i) {t : Int}
    (h : ∃ i, OpenAt starts stops n t i) :
    ∃! row, row ∈ (List.range n).flatMap (sessionRows starts stops n) ∧
      row.startNs ≤ t ∧ t < row.stopNs ∧ row.layer = .primary := by
  obtain ⟨i, hprimary⟩ := exists_primaryAt h
  obtain ⟨⟨hi, hstart, hstop⟩, -⟩ := id hprimary
  have hlayered := (sessionRows_spec hle hi).2 (hstart.trans_lt hstop)
  obtain ⟨row, hrow, hlower, hupper⟩ := hlayered.tiles.exists_holds hstart hstop
  refine ⟨row, ⟨List.mem_flatMap.mpr ⟨i, List.mem_range.mpr hi, hrow⟩, hlower, hupper,
    (hlayered.primary row hrow t hlower hupper).mpr hprimary⟩, ?_⟩
  rintro other ⟨hother, hlower', hupper', hlayer⟩
  obtain ⟨j, hj, hother⟩ := List.mem_flatMap.mp hother
  have hj := List.mem_range.mp hj
  have hlt : starts j < stops j := by
    refine lt_of_le_of_ne (hle j hj) fun heq => ?_
    rw [(sessionRows_spec hle hj).1 heq, List.mem_singleton] at hother
    subst hother
    exact absurd (hlower'.trans_lt hupper') (heq ▸ lt_irrefl _)
  have hlayered' := (sessionRows_spec hle hj).2 hlt
  obtain rfl := hprimary.unique ((hlayered'.primary other hother t hlower' hupper').mp hlayer)
  exact hlayered.tiles.eq_of_holds hother hrow ⟨hlower', hupper'⟩ ⟨hlower, hupper⟩

end Output

/-- The split lists, session by session, the maximal pieces of the pointwise rule: they tile a
session of positive length, neighbours differ in layer, and an instant is primary exactly where the
session has the greatest start, then index, among the open ones. A session without length has one
primary row. Hence every covered instant has exactly one primary owner. -/
theorem split_overlapping_sessions_layers (starts stops : List Int)
    (hlength : starts.length = stops.length)
    (hle : ∀ i < starts.length, starts.getD i 0 ≤ stops.getD i 0) :
    ∃ parts : List (List LayeredSession),
      splitOverlappingSessions starts stops = .ok parts.flatten ∧
      parts.length = starts.length ∧
      (∀ i part, parts[i]? = some part →
        (∀ row ∈ part, row.sessionIndex = i) ∧
        (starts.getD i 0 = stops.getD i 0 →
          part = [⟨i, starts.getD i 0, stops.getD i 0, .primary⟩]) ∧
        (starts.getD i 0 < stops.getD i 0 →
          Tiles LayeredSession.startNs LayeredSession.stopNs (starts.getD i 0) part
            (stops.getD i 0) ∧
          part.IsChain (fun a b => a.layer ≠ b.layer) ∧
          ∀ row ∈ part, ∀ t, row.startNs ≤ t → t < row.stopNs →
            (row.layer = .primary ↔ PrimaryAt (fun i => starts.getD i 0)
              (fun i => stops.getD i 0) starts.length t i))) ∧
      ∀ t, (∃ i, OpenAt (fun i => starts.getD i 0) (fun i => stops.getD i 0) starts.length t i) →
        ∃! row, row ∈ parts.flatten ∧ row.startNs ≤ t ∧ t < row.stopNs ∧
          row.layer = .primary := by
  have hvalid : ((List.range starts.length).any fun i => stops.getD i 0 < starts.getD i 0) =
      false := by
    simpa using hle
  refine ⟨(List.range starts.length).map (sessionRows (fun i => starts.getD i 0)
    (fun i => stops.getD i 0) starts.length), ?_, by simp, fun i part hpart => ?_, fun t ht => ?_⟩
  · unfold splitOverlappingSessions
    rw [if_neg (not_not.mpr hlength), hvalid, sortByKey_sweepRows hle, List.flatMap_def]
    rfl
  · rw [List.getElem?_map, Option.map_eq_some_iff] at hpart
    obtain ⟨k, hk, rfl⟩ := hpart
    obtain ⟨hi, rfl⟩ := List.getElem?_eq_some_iff.mp hk
    simp only [List.getElem_range, List.length_range] at hi ⊢
    obtain ⟨hzero, hpositive⟩ := sessionRows_spec hle hi
    exact ⟨fun row hrow => by simpa using (List.mem_filter.mp hrow).2, hzero,
      fun hlt => ⟨(hpositive hlt).tiles, (hpositive hlt).alternates, (hpositive hlt).primary⟩⟩
  · rw [← List.flatMap_def]
    exact existsUnique_primary_row hle ht

/-- A session that is interrupted by a newer one: its pieces tile it and alternate in layer. -/
theorem split_overlapping_sessions_interrupted :
    ∃ part rest, splitOverlappingSessions [0, 5] [10, 8] = .ok (part ++ rest) ∧
      Tiles LayeredSession.startNs LayeredSession.stopNs 0 part 10 ∧
      part.IsChain fun a b => a.layer ≠ b.layer := by
  obtain ⟨parts, heq, hlength, hparts, -⟩ :=
    split_overlapping_sessions_layers [0, 5] [10, 8] rfl (by decide)
  obtain ⟨part, rest, rfl⟩ := List.exists_cons_of_length_eq_add_one hlength
  obtain ⟨-, -, hpositive⟩ := hparts 0 part rfl
  obtain ⟨htiles, hchain, -⟩ := hpositive (by decide)
  exact ⟨part, rest.flatten, heq, htiles, hchain⟩

example : splitOverlappingSessions [0, 5, 7] [10, 8, 7] =
    .ok [⟨0, 0, 5, .primary⟩, ⟨0, 5, 8, .secondary⟩, ⟨0, 8, 10, .primary⟩, ⟨1, 5, 8, .primary⟩,
      ⟨2, 7, 7, .primary⟩] := by
  decide +kernel

end Chronicle.Matcher
