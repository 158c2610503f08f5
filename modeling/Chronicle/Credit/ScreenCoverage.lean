import Mathlib.Data.List.Chain
import Chronicle.Credit.Intervals
import Chronicle.Library.Bridging

/-!
# What the creditable intervals cover

The change points cut a window into segments. Within a session, the screen-on time is credited, and
so is a dark stretch that follows credited time and is short enough. The loop over the change points
is the walk of `bridge` along these segments.
-/

namespace Chronicle.Credit

open Chronicle.Library Chronicle.Library.Bridging Chronicle.Library.Intervals
  Chronicle.Library.Machine

/-! ## The rule for one instant -/

/-- The change points at or before the instant. -/
def changesUntil (points : List ScreenChangePoint) (t : Int) : List ScreenChangePoint :=
  points.takeWhile fun point => point.timestampNs ≤ t

/-- The change points after the instant. -/
def changesAfter (points : List ScreenChangePoint) (t : Int) : List ScreenChangePoint :=
  points.dropWhile fun point => point.timestampNs ≤ t

def ScreenOn (points : List ScreenChangePoint) (t : Int) : Prop :=
  screenStateAt points t = some .on

def ScreenOff (points : List ScreenChangePoint) (t : Int) : Prop :=
  screenStateAt points t = some .off

/-- Since when the screen has been in its state. -/
def stateSince (points : List ScreenChangePoint) (t : Int) : Option Int :=
  (changesUntil points t).getLast?.map ScreenChangePoint.timestampNs

/-- When the screen next turns on. -/
def screenReturn (points : List ScreenChangePoint) (t : Int) : Option Int :=
  (points.find? fun point => t < point.timestampNs ∧ point.state = .on).map
    ScreenChangePoint.timestampNs

/-- Where the dark stretch ends as it is measured: at the screen's return, or at the session's end
if that comes first and the option asks for it. -/
def measuredEnd (options : BridgeOptions) (points : List ScreenChangePoint) (stop t : Int) :
    Option Int :=
  if options.offMeasuredToSessionEnd then some ((screenReturn points t).elim stop (min · stop))
  else screenReturn points t

/-- The screen is off, and stays off for less than the auto-lock bound. -/
def ShortOff (options : BridgeOptions) (points : List ScreenChangePoint) (stop t : Int) : Prop :=
  ScreenOff points t ∧ ∃ since ∈ stateSince points t, ∃ until_ ∈ measuredEnd options points stop t,
    until_ - since < options.autoLockNs

/-- A short dark stretch that follows credited on-time: the screen was on earlier in the window, and
since then it was never off for long. -/
def BridgedOff (options : BridgeOptions) (points : List ScreenChangePoint) (start stop t : Int) :
    Prop :=
  ShortOff options points stop t ∧ ∃ u, start ≤ u ∧ u < t ∧ ScreenOn points u ∧
    ∀ v, u ≤ v → v < t → ScreenOn points v ∨ ShortOff options points stop v

/-! ## The segments of a window -/

/-- What a segment does to the interval being built. -/
def segmentShade (options : BridgeOptions) (points : List ScreenChangePoint)
    (state : Option ScreenCreditState) (cursor segmentEnd : Int) : Shade :=
  match state with
  | some .on => .lit
  | some .off => if bridges options points cursor segmentEnd then .dim else .dark
  | none => .dark

/-- The segments that the coming change points cut from the rest of the window. -/
def segmentsFrom (options : BridgeOptions) (stop : Int) :
    List ScreenChangePoint → Option ScreenCreditState → Int → List (Int × Shade)
  | [], state, cursor =>
      if cursor < stop then [(stop, segmentShade options [] state cursor stop)] else []
  | point :: points, state, cursor =>
      if cursor < stop then
        let segmentEnd := min point.timestampNs stop
        (if cursor < segmentEnd then
            [(segmentEnd, segmentShade options (point :: points) state cursor segmentEnd)]
          else []) ++ segmentsFrom options stop points (some point.state) segmentEnd
      else []

variable {options : BridgeOptions} {points : List ScreenChangePoint} {start stop cursor t : Int}
  {segmentEnd : Int} {state : Option ScreenCreditState} {begun : Option Int}

/-- One segment of the loop is one segment of the walk. -/
theorem creditSegment_eq :
    creditSegment options points state cursor segmentEnd (begun.map fun left => (left, cursor)) =
      (if segmentShade options points state cursor segmentEnd = .dark then closed cursor begun
        else [],
        (carried cursor begun (segmentShade options points state cursor segmentEnd)).map
          fun left => (left, segmentEnd)) := by
  rcases state with _ | state
  · cases begun <;> rfl
  · cases state with
    | on => cases begun <;> rfl
    | off =>
        cases hbridges : bridges options points cursor segmentEnd <;> cases begun <;>
          simp [creditSegment, segmentShade, hbridges, closed, carried]

theorem creditFrom_eq (hcursor : cursor ≤ stop)
    (hsorted : points.Pairwise fun a b => a.timestampNs ≤ b.timestampNs)
    (hahead : ∀ point ∈ points, cursor ≤ point.timestampNs) :
    creditFrom options stop points state cursor (begun.map fun left => (left, cursor)) =
      bridge cursor begun (segmentsFrom options stop points state cursor) := by
  have hcurrent : (begun.map fun left => (left, cursor)).toList = closed cursor begun := by
    cases begun <;> rfl
  induction points generalizing state cursor begun with
  | nil =>
      rw [creditFrom, segmentsFrom, hcurrent]
      split
      · rw [creditSegment_eq, bridge_cons]
        generalize carried cursor begun _ = next
        cases next <;> rfl
      · rfl
  | cons point points ih =>
      obtain ⟨hfirst, hsorted⟩ := List.pairwise_cons.mp hsorted
      have hpoint := hahead point List.mem_cons_self
      have hlater : ∀ next ∈ points, min point.timestampNs stop ≤ next.timestampNs :=
        fun next hnext => (min_le_left _ _).trans (hfirst next hnext)
      rw [creditFrom, segmentsFrom, hcurrent]
      split
      · dsimp only
        split
        · rw [creditSegment_eq, List.singleton_append, bridge_cons,
            ih (min_le_right _ _) hsorted hlater]
          generalize carried cursor begun _ = next
          cases next <;> rfl
        · case isFalse hstay =>
            have hsame : min point.timestampNs stop = cursor :=
              le_antisymm (not_lt.mp hstay) (le_min hpoint hcursor)
            rw [hsame] at hlater ⊢
            exact ih hcursor hsorted hlater hcurrent
      · rfl

theorem advancing_segmentsFrom (hcursor : cursor ≤ stop)
    (hsorted : points.Pairwise fun a b => a.timestampNs ≤ b.timestampNs)
    (hahead : ∀ point ∈ points, cursor ≤ point.timestampNs) :
    Advancing cursor (segmentsFrom options stop points state cursor) := by
  induction points generalizing state cursor with
  | nil =>
      rw [segmentsFrom]
      split
      · case isTrue hlt => exact ⟨hlt, trivial⟩
      · trivial
  | cons point points ih =>
      obtain ⟨hfirst, hsorted⟩ := List.pairwise_cons.mp hsorted
      have hpoint := hahead point List.mem_cons_self
      have hlater : ∀ next ∈ points, min point.timestampNs stop ≤ next.timestampNs :=
        fun next hnext => (min_le_left _ _).trans (hfirst next hnext)
      rw [segmentsFrom]
      split
      · dsimp only
        split
        · case isTrue hadvance =>
            exact ⟨hadvance, ih (min_le_right _ _) hsorted hlater⟩
        · case isFalse hstay =>
            have hsame : min point.timestampNs stop = cursor :=
              le_antisymm (not_lt.mp hstay) (le_min hpoint hcursor)
            rw [hsame] at hlater ⊢
            exact ih hcursor hsorted hlater
      · trivial

/-! ## The shade of an instant -/

/-- The state at the instant, if it was `state` before the coming changes. -/
def stateFrom (points : List ScreenChangePoint) (state : Option ScreenCreditState) (t : Int) :
    Option ScreenCreditState :=
  ((changesUntil points t).getLast?.map ScreenChangePoint.state).or state

/-- Where the segment of the instant begins and ends. -/
def segmentStart (points : List ScreenChangePoint) (cursor t : Int) : Int :=
  (stateSince points t).getD cursor

def segmentStop (points : List ScreenChangePoint) (stop t : Int) : Int :=
  (changesAfter points t).head?.elim stop fun point => min point.timestampNs stop

section Reached

variable {point : ScreenChangePoint}

theorem changesUntil_cons (hreached : point.timestampNs ≤ t) :
    changesUntil (point :: points) t = point :: changesUntil points t :=
  List.takeWhile_cons_of_pos (decide_eq_true hreached)

theorem changesAfter_cons (hreached : point.timestampNs ≤ t) :
    changesAfter (point :: points) t = changesAfter points t :=
  List.dropWhile_cons_of_pos (decide_eq_true hreached)

theorem changesUntil_cons_of_lt (hlater : t < point.timestampNs) :
    changesUntil (point :: points) t = [] :=
  List.takeWhile_cons_of_neg (by simpa using hlater)

theorem changesAfter_cons_of_lt (hlater : t < point.timestampNs) :
    changesAfter (point :: points) t = point :: points :=
  List.dropWhile_cons_of_neg (by simpa using hlater)

theorem stateFrom_cons (hreached : point.timestampNs ≤ t) :
    stateFrom (point :: points) state t = stateFrom points (some point.state) t := by
  rw [stateFrom, stateFrom, changesUntil_cons hreached, List.getLast?_cons]
  cases (changesUntil points t).getLast? <;> rfl

theorem segmentStart_cons (hreached : point.timestampNs ≤ t) :
    segmentStart (point :: points) cursor t = segmentStart points point.timestampNs t := by
  rw [segmentStart, segmentStart, stateSince, stateSince, changesUntil_cons hreached,
    List.getLast?_cons]
  cases (changesUntil points t).getLast? <;> rfl

end Reached

/-- The segment an instant lies in is read from the changes around it. -/
theorem shadeAt_segmentsFrom (hcursor : cursor ≤ t) (hstop : t < stop) :
    shadeAt (segmentsFrom options stop points state cursor) t =
      some (segmentShade options (changesAfter points t) (stateFrom points state t)
        (segmentStart points cursor t) (segmentStop points stop t)) := by
  induction points generalizing state cursor with
  | nil =>
      rw [segmentsFrom, if_pos (hcursor.trans_lt hstop), shadeAt_cons_of_lt hstop]
      rfl
  | cons point points ih =>
      rw [segmentsFrom, if_pos (hcursor.trans_lt hstop)]
      dsimp only
      by_cases hreached : point.timestampNs ≤ t
      · have hend : min point.timestampNs stop = point.timestampNs :=
          min_eq_left (hreached.trans hstop.le)
        have hskip : ∀ shade segments, shadeAt ((if cursor < point.timestampNs then
            [(point.timestampNs, shade)] else []) ++ segments) t = shadeAt segments t := by
          intro shade segments
          split
          · exact shadeAt_cons_of_le hreached
          · rfl
        rw [hend, hskip, ih hreached, stateFrom_cons hreached,
          segmentStart_cons hreached, segmentStop, segmentStop, changesAfter_cons hreached]
      · have hlater := not_le.mp hreached
        have hinside : t < min point.timestampNs stop := lt_min hlater hstop
        rw [if_pos (hcursor.trans_lt hinside), List.singleton_append, shadeAt_cons_of_lt hinside,
          segmentStop, segmentStart, stateSince, stateFrom, changesUntil_cons_of_lt hlater,
          changesAfter_cons_of_lt hlater]
        rfl

theorem shadeAt_segmentsFrom_of_le (hstop : stop ≤ t) :
    shadeAt (segmentsFrom options stop points state cursor) t = none := by
  induction points generalizing state cursor with
  | nil =>
      rw [segmentsFrom]
      split
      · rw [shadeAt_cons_of_le hstop, shadeAt_nil]
      · rfl
  | cons point points ih =>
      rw [segmentsFrom]
      split
      · dsimp only
        split
        · rw [List.singleton_append, shadeAt_cons_of_le ((min_le_right _ _).trans hstop), ih]
        · exact ih
      · rfl

/-! ## The whole list of change points -/

section Whole

variable (hle : start ≤ t)

include hle

theorem changesUntil_split :
    changesUntil points t =
      changesUntil points start ++ changesUntil (changesAfter points start) t := by
  induction points with
  | nil => rfl
  | cons point points ih =>
      by_cases hreached : point.timestampNs ≤ start
      · rw [changesUntil_cons (hreached.trans hle), changesUntil_cons hreached,
          changesAfter_cons hreached, List.cons_append, ih]
      · rw [changesUntil_cons_of_lt (not_le.mp hreached), changesAfter_cons_of_lt
          (not_le.mp hreached), List.nil_append]

theorem changesAfter_split :
    changesAfter points t = changesAfter (changesAfter points start) t := by
  induction points with
  | nil => rfl
  | cons point points ih =>
      by_cases hreached : point.timestampNs ≤ start
      · rw [changesAfter_cons (hreached.trans hle), changesAfter_cons hreached, ih]
      · rw [changesAfter_cons_of_lt (not_le.mp hreached)]

/-- The state at an instant of the window, read from the changes after the window's start. -/
theorem screenStateAt_eq :
    screenStateAt points t =
      stateFrom (changesAfter points start) (screenStateAt points start) t := by
  have hwhole : screenStateAt points t =
      (changesUntil points t).getLast?.map ScreenChangePoint.state := rfl
  have hstart : screenStateAt points start =
      (changesUntil points start).getLast?.map ScreenChangePoint.state := rfl
  rw [hwhole, hstart, stateFrom, changesUntil_split hle, List.getLast?_append]
  cases (changesUntil (changesAfter points start) t).getLast? <;> rfl

end Whole

theorem lt_of_mem_changesAfter (hsorted : points.Pairwise fun a b => a.timestampNs ≤ b.timestampNs)
    {point : ScreenChangePoint} (hpoint : point ∈ changesAfter points t) :
    t < point.timestampNs := by
  induction points with
  | nil => exact absurd hpoint List.not_mem_nil
  | cons first points ih =>
      by_cases hreached : first.timestampNs ≤ t
      · rw [changesAfter_cons hreached] at hpoint
        exact ih hsorted.of_cons hpoint
      · rw [changesAfter_cons_of_lt (not_le.mp hreached)] at hpoint
        rcases List.mem_cons.mp hpoint with rfl | hlater
        · exact not_le.mp hreached
        · exact (not_le.mp hreached).trans_le (List.rel_of_pairwise_cons hsorted hlater)

theorem le_of_mem_changesUntil {point : ScreenChangePoint}
    (hpoint : point ∈ changesUntil points t) :
    point ∈ points ∧ point.timestampNs ≤ t := by
  have hreached := List.all_eq_true.mp List.all_takeWhile point hpoint
  exact ⟨(List.takeWhile_sublist _).subset hpoint, of_decide_eq_true hreached⟩

/-- Change points that alternate, in the order of time. -/
structure Alternating (points : List ScreenChangePoint) : Prop where
  sorted : points.Pairwise fun a b => a.timestampNs ≤ b.timestampNs
  alternates : points.IsChain fun a b => a.state ≠ b.state

/-- While the screen is off, the next change turns it on. -/
theorem Alternating.screenReturn_eq (h : Alternating points) (hoff : ScreenOff points t) :
    screenReturn points t = (changesAfter points t).head?.map ScreenChangePoint.timestampNs := by
  have hsplit : changesUntil points t ++ changesAfter points t = points :=
    List.takeWhile_append_dropWhile
  have hbefore : (changesUntil points t).find?
      (fun point => t < point.timestampNs ∧ point.state = .on) = none := by
    rw [List.find?_eq_none]
    intro point hpoint
    simp [not_lt.mpr (le_of_mem_changesUntil hpoint).2]
  rw [screenReturn]
  conv_lhs => rw [← hsplit, List.find?_append, hbefore, Option.none_or]
  cases hafter : changesAfter points t with
  | nil => rfl
  | cons next rest =>
      have hlater : t < next.timestampNs :=
        lt_of_mem_changesAfter h.sorted (hafter ▸ List.mem_cons_self)
      have hon : next.state = .on := by
        have hchain := h.alternates
        rw [← hsplit, hafter, List.isChain_append] at hchain
        obtain ⟨last, hlast, hstate⟩ := Option.map_eq_some_iff.mp hoff
        have hdiffers := hchain.2.2 last hlast next rfl
        rw [hstate] at hdiffers
        cases hnext : next.state with
        | on => rfl
        | off => exact absurd hnext.symm hdiffers
      simp [hlater, hon]

/-- The change points of a window whose elapsed times are representable. -/
structure Measurable (points : List ScreenChangePoint) (start stop : Int) : Prop where
  points : ∀ a ∈ points, ∀ b ∈ points, Fits64 (b.timestampNs - a.timestampNs)
  window : Fits64 (stop - start)

/-- A dark stretch that begins inside the window is bridged if it is short. -/
theorem bridges_iff (h : Alternating points) (hmeasurable : Measurable points start stop)
    (hstop : t < stop) (hoff : ScreenOff points t) {since : Int}
    (hsince : since ∈ stateSince points t) (hstart : start < since) :
    bridges options (changesAfter points t) since (segmentStop points stop t) = true ↔
      ∃ until_ ∈ measuredEnd options points stop t, until_ - since < options.autoLockNs := by
  obtain ⟨last, hlast, rfl⟩ := Option.map_eq_some_iff.mp hsince
  obtain ⟨hmem, hreached⟩ := le_of_mem_changesUntil (List.mem_of_getLast? hlast)
  have hwindow := fits64_iff.mp hmeasurable.window
  unfold bridges measuredEnd
  rw [h.screenReturn_eq hoff, segmentStop]
  cases hafter : changesAfter points t with
  | nil =>
      have hfits : Fits64 (stop - last.timestampNs) := fits64_iff.mpr (by omega)
      simp [wrap64_of_fits hfits]
  | cons next rest =>
      have hnext : next ∈ changesAfter points t := hafter ▸ List.mem_cons_self
      have hlater := lt_of_mem_changesAfter h.sorted hnext
      have hfits := hmeasurable.points last hmem next ((List.dropWhile_sublist _).subset hnext)
      have hclipped : Fits64 (min next.timestampNs stop - last.timestampNs) :=
        fits64_iff.mpr (by omega)
      cases hmode : options.offMeasuredToSessionEnd <;>
        simp [wrap64_of_fits hfits, wrap64_of_fits hclipped]

section Window

variable (h : Alternating points) (hmeasurable : Measurable points start stop)

/-- The segments of the window. -/
def windowSegments (options : BridgeOptions) (points : List ScreenChangePoint) (start stop : Int) :
    List (Int × Shade) :=
  segmentsFrom options stop (changesAfter points start) (screenStateAt points start) start

theorem shadeAt_windowSegments (hle : start ≤ t) (hstop : t < stop) :
    shadeAt (windowSegments options points start stop) t =
      some (segmentShade options (changesAfter points t) (screenStateAt points t)
        (segmentStart (changesAfter points start) start t) (segmentStop points stop t)) := by
  rw [windowSegments, shadeAt_segmentsFrom hle hstop, ← changesAfter_split hle,
    ← screenStateAt_eq hle, segmentStop, ← changesAfter_split hle, ← segmentStop]

theorem shadeAt_eq_lit_iff (hle : start ≤ t) (hstop : t < stop) :
    shadeAt (windowSegments options points start stop) t = some .lit ↔ ScreenOn points t := by
  rw [shadeAt_windowSegments hle hstop, Option.some.injEq, ScreenOn]
  rcases screenStateAt points t with _ | state
  · simp [segmentShade]
  · cases state with
    | on => simp [segmentShade]
    | off =>
        simp only [segmentShade]
        split <;> simp

include h

/-- If the screen was on earlier in the window and is not on now, it changed inside the window. -/
theorem exists_change {u : Int} (hu : start ≤ u) (hut : u ≤ t) (hon : ScreenOn points u)
    (hnot : ¬ ScreenOn points t) :
    ∃ since ∈ stateSince points t, start < since ∧
      segmentStart (changesAfter points start) start t = since ∧ ScreenOff points t := by
  have hle := hu.trans hut
  have hsplit : changesUntil points t = _ ++ _ := changesUntil_split hle
  cases hlast : (changesUntil (changesAfter points start) t).getLast? with
  | none =>
      -- no change since the window's start, so the state is the one at `u`
      have hempty := List.getLast?_eq_none_iff.mp hlast
      have hearlier : changesUntil (changesAfter points start) t = _ ++ _ :=
        changesUntil_split hut
      rw [hempty] at hearlier
      have hbefore := (List.append_eq_nil_iff.mp hearlier.symm).1
      rw [ScreenOn, screenStateAt_eq hu, stateFrom, hbefore] at hon
      rw [ScreenOn, screenStateAt_eq hle, stateFrom, hempty] at hnot
      exact absurd hon hnot
  | some last =>
      have hmem := List.mem_of_getLast? hlast
      have hsince : stateSince points t = some last.timestampNs := by
        rw [stateSince, hsplit, List.getLast?_append, hlast]
        rfl
      refine ⟨last.timestampNs, hsince, ?_, ?_, ?_⟩
      · exact lt_of_mem_changesAfter h.sorted (le_of_mem_changesUntil hmem).1
      · rw [segmentStart, stateSince, hlast]
        rfl
      · have hstate : screenStateAt points t = some last.state := by
          rw [screenStateAt_eq hle, stateFrom, hlast]
          rfl
        rw [ScreenOff, hstate]
        rw [ScreenOn, hstate] at hnot
        cases hlit : last.state with
        | on => exact absurd (congrArg some hlit) hnot
        | off => rfl

theorem creditableIntervals_eq (hwindow : start < stop) :
    creditableIntervals points start stop options =
      bridge start none (windowSegments options points start stop) := by
  have hwalk : creditFrom options stop (changesAfter points start) (screenStateAt points start)
      start ((none : Option Int).map fun left => (left, start)) = _ :=
    creditFrom_eq hwindow.le (h.sorted.sublist (List.dropWhile_sublist _))
      fun _ hpoint => (lt_of_mem_changesAfter h.sorted hpoint).le
  exact hwalk

include hmeasurable

/-- After the screen was on in the window, an instant is dim exactly if the screen is shortly off,
and otherwise dark if it is off. -/
theorem shadeAt_off {u : Int} (hu : start ≤ u) (hut : u ≤ t) (hstop : t < stop)
    (hon : ScreenOn points u) (hnot : ¬ ScreenOn points t) :
    (shadeAt (windowSegments options points start stop) t = some .dim ↔
        ShortOff options points stop t) ∧
      (shadeAt (windowSegments options points start stop) t = some .dark ↔
        ¬ ShortOff options points stop t) := by
  obtain ⟨since, hsince, hstart, hbegin, hoff⟩ := exists_change h hu hut hon hnot
  have hbridges : bridges options _ since (segmentStop points stop t) = true ↔ _ :=
    bridges_iff h hmeasurable hstop hoff hsince hstart
  have hshort : ShortOff options points stop t ↔
      ∃ until_ ∈ measuredEnd options points stop t, until_ - since < options.autoLockNs := by
    rw [ShortOff, Option.mem_def.mp hsince]
    simp [hoff]
  rw [shadeAt_windowSegments (hu.trans hut) hstop, hbegin, hoff, hshort, ← hbridges]
  simp only [segmentShade]
  split <;> simp_all

theorem neverDark_iff {u : Int} (hu : start ≤ u) (hstop : t ≤ stop) (hon : ScreenOn points u) :
    NeverDark (windowSegments options points start stop) u t ↔
      ∀ v, u ≤ v → v < t → ScreenOn points v ∨ ShortOff options points stop v := by
  refine forall_congr' fun v => forall_congr' fun huv => forall_congr' fun hvt => ?_
  have hvstop := hvt.trans_le hstop
  by_cases hlit : ScreenOn points v
  · have hshade : shadeAt (windowSegments options points start stop) v = some .lit :=
      (shadeAt_eq_lit_iff (hu.trans huv) hvstop).mpr hlit
    simp [hshade, hlit]
  · rw [ne_eq, (shadeAt_off h hmeasurable hu huv hvstop hon hlit).2, not_not, or_iff_right hlit]

/-- What is credited inside a window is the screen-on time and the short dark stretches that follow
credited on-time. -/
theorem covers_creditableIntervals (hwindow : start < stop) :
    Covers (creditableIntervals points start stop options) t ↔
      start ≤ t ∧ t < stop ∧ (ScreenOn points t ∨ BridgedOff options points start stop t) := by
  have hadvancing : Advancing start (windowSegments options points start stop) :=
    advancing_segmentsFrom hwindow.le (h.sorted.sublist (List.dropWhile_sublist _))
      fun _ hpoint => (lt_of_mem_changesAfter h.sorted hpoint).le
  rw [creditableIntervals_eq h hwindow,
    covers_bridge hadvancing fun _ hleft => absurd hleft (by simp)]
  simp only [Option.not_mem_none, false_and, exists_const, and_false, false_or]
  refine and_congr_right fun hle => ?_
  rcases le_or_gt stop t with hbeyond | hstop
  · have hnone : shadeAt (windowSegments options points start stop) t = none :=
      shadeAt_segmentsFrom_of_le hbeyond
    simp [Credited, hnone, not_lt.mpr hbeyond]
  · rw [Credited, shadeAt_eq_lit_iff hle hstop, and_iff_right hstop]
    by_cases hlit : ScreenOn points t
    · exact iff_of_true (.inl hlit) (.inl hlit)
    · rw [or_iff_right hlit, or_iff_right hlit]
      constructor
      · rintro ⟨hdim, ⟨hnone, -⟩ | ⟨u, hu, hut, hon, hnever⟩⟩
        · exact absurd hnone (by simp)
        · rw [shadeAt_eq_lit_iff hu (hut.trans hstop)] at hon
          exact ⟨(shadeAt_off h hmeasurable hu hut.le hstop hon hlit).1.mp hdim, u, hu, hut, hon,
            (neverDark_iff h hmeasurable hu hstop.le hon).mp hnever⟩
      · rintro ⟨hshort, u, hu, hut, hon, hnever⟩
        exact ⟨(shadeAt_off h hmeasurable hu hut.le hstop hon hlit).1.mpr hshort, .inr
          ⟨u, hu, hut, (shadeAt_eq_lit_iff hu (hut.trans hstop)).mpr hon,
            (neverDark_iff h hmeasurable hu hstop.le hon).mpr hnever⟩⟩

/-- The creditable intervals are apart inside the window and cover the screen-on time and the short
dark stretches that follow it; a dark stretch without a return is bridged only if the option
measures it to the session's end. -/
theorem creditable_intervals_cover_lit_and_bridged (hwindow : start < stop) :
    Apart start stop (creditableIntervals points start stop options) ∧
      (∀ t, Covers (creditableIntervals points start stop options) t ↔
        start ≤ t ∧ t < stop ∧ (ScreenOn points t ∨ BridgedOff options points start stop t)) ∧
      ∀ t, ScreenOff points t → screenReturn points t = none →
        Covers (creditableIntervals points start stop options) t →
          options.offMeasuredToSessionEnd = true := by
  refine ⟨apart_creditableIntervals hwindow.le h.sorted,
    fun t => covers_creditableIntervals h hmeasurable hwindow, fun t hoff hnever hcovers => ?_⟩
  obtain ⟨-, -, hon | ⟨⟨-, since, -, until_, huntil, -⟩, -⟩⟩ :=
    (covers_creditableIntervals h hmeasurable hwindow).mp hcovers
  · rw [ScreenOn, hoff] at hon
    exact absurd hon (by simp)
  · by_contra hoption
    rw [measuredEnd, if_neg hoption, hnever] at huntil
    exact absurd huntil (by simp)

end Window

/-- A blip, a long lock, and a dark stretch that never ends. -/
def blipAndLock : List ScreenChangePoint :=
  [⟨0, .on, []⟩, ⟨10, .off, []⟩, ⟨12, .on, []⟩, ⟨20, .off, []⟩, ⟨40, .on, []⟩, ⟨50, .off, []⟩]

theorem creditable_intervals_cover_blip :
    creditableIntervals blipAndLock 5 53 ⟨5, false⟩ = [(5, 20), (40, 50)] ∧
      BridgedOff ⟨5, false⟩ blipAndLock 5 53 11 := by
  have hvalue : creditableIntervals blipAndLock 5 53 ⟨5, false⟩ = [(5, 20), (40, 50)] := by
    decide +kernel
  have halternating : Alternating blipAndLock := ⟨by decide, by simp [blipAndLock]⟩
  have hrule : _ ∧ (∀ t, Covers (creditableIntervals blipAndLock 5 53 ⟨5, false⟩) t ↔ _) ∧ _ :=
    creditable_intervals_cover_lit_and_bridged halternating ⟨by decide, by decide⟩ (by decide)
  have hcovers : Covers (creditableIntervals blipAndLock 5 53 ⟨5, false⟩) 11 := by
    rw [hvalue]
    exact ⟨(5, 20), by decide, by decide, by decide⟩
  have hoff : ¬ ScreenOn blipAndLock 11 := by
    rw [ScreenOn]
    decide
  exact ⟨hvalue, ((hrule.2.1 11).mp hcovers).2.2.resolve_left hoff⟩

end Chronicle.Credit
