import Chronicle.Credit.Substrate
import Chronicle.Library.Intervals

/-!
# Credited intervals of a session

The stretches in which the device was alive, the stretches a lit screen or a bridged blip covers,
and the intersection of the two. Each list of intervals is in order, apart and inside the window
it was asked for.
-/

namespace Chronicle.Credit

open Chronicle.Library Chronicle.Library.Intervals Chronicle.Library.Machine

/-- `CreditInterval` -/
abbrev CreditInterval := Int × Int

/-- The loop of `bisect_right`: `fuel` bounds the passes left. -/
def bisectRightFrom (values : List Int) (target : Int) : Nat → Nat → Nat → Nat
  | 0, low, _ => low
  | fuel + 1, low, high =>
      if low < high then
        if values.getD ((low + high) / 2) 0 ≤ target then
          bisectRightFrom values target fuel ((low + high) / 2 + 1) high
        else bisectRightFrom values target fuel low ((low + high) / 2)
      else low

/-- `bisect_right`; every pass shortens the range, so its length bounds the number of passes. -/
def bisectRight (values : List Int) (target : Int) : Nat :=
  bisectRightFrom values target values.length 0 values.length

/-- The device started after the left instant and at most ten seconds after the right one. -/
def booted (boots : List Int) (left right : Int) : Bool :=
  match boots[bisectRight boots left]? with
  | some boot => boot ≤ saturate64 (right + 10000000000)
  | none => false

/-- The next event does not continue the span that reached `last`. -/
def breaks (toleranceNs : Int) (boots : List Int) (last timestamp : Int) : Bool :=
  !(saturate64 (timestamp - last) ≤ toleranceNs) || booted boots last timestamp

/-- The loop of `build_alive_spans`. -/
def aliveSpansFrom (toleranceNs : Int) (boots : List Int) (spanStart last : Int) :
    List Int → List CreditInterval
  | [] => [(spanStart, last)]
  | timestamp :: rest =>
      if breaks toleranceNs boots last timestamp then
        (spanStart, last) :: aliveSpansFrom toleranceNs boots timestamp timestamp rest
      else aliveSpansFrom toleranceNs boots spanStart timestamp rest

/-- `build_alive_spans` -/
def buildAliveSpans (timestamps : List Int) (toleranceNs : Int) (boots : List Int) :
    List CreditInterval :=
  match timestamps with
  | [] => []
  | first :: rest => aliveSpansFrom toleranceNs boots first first rest

/-- The part of a span inside the window, if it has positive length. -/
def clipSpan (start stop : Int) (span : CreditInterval) : Option CreditInterval :=
  if max span.1 start < min span.2 stop then some (max span.1 start, min span.2 stop) else none

/-- `clip_alive_spans`; the spans end in order, so the partition point is the first that ends
after the start. -/
def clipAliveSpans (spans : List CreditInterval) (start stop : Int) : List CreditInterval :=
  ((spans.dropWhile fun span => span.2 ≤ start).takeWhile fun span => span.1 < stop).filterMap
    (clipSpan start stop)

/-- `screen_state_at`: the state of the last change at or before the instant. -/
def screenStateAt (points : List ScreenChangePoint) (timestamp : Int) : Option ScreenCreditState :=
  (points.takeWhile fun point => point.timestampNs ≤ timestamp).getLast?.map
    ScreenChangePoint.state

/-- How a dark screen inside a credited stretch is bridged. -/
structure BridgeOptions where
  autoLockNs : Int
  offMeasuredToSessionEnd : Bool
deriving DecidableEq, Repr

/-- The dark stretch that begins at the cursor is short enough to be bridged. -/
def bridges (options : BridgeOptions) (points : List ScreenChangePoint)
    (cursor segmentEnd : Int) : Bool :=
  if options.offMeasuredToSessionEnd then wrap64 (segmentEnd - cursor) < options.autoLockNs
  else points.head?.any fun next => wrap64 (next.timestampNs - cursor) < options.autoLockNs

/-- What a segment of positive length makes of the interval being built: the interval it closes,
and the one it leaves open. -/
def creditSegment (options : BridgeOptions) (points : List ScreenChangePoint)
    (state : Option ScreenCreditState) (cursor segmentEnd : Int)
    (current : Option CreditInterval) : List CreditInterval × Option CreditInterval :=
  match state, current with
  | some .on, some interval => ([], some (interval.1, segmentEnd))
  | some .on, none => ([], some (cursor, segmentEnd))
  | some .off, some interval =>
      if bridges options points cursor segmentEnd then ([], some (interval.1, segmentEnd))
      else ([interval], none)
  | none, some interval => ([interval], none)
  | _, none => ([], none)

/-- The loop of `creditable_intervals`; `points` are the change points still to come. -/
def creditFrom (options : BridgeOptions) (stop : Int) :
    List ScreenChangePoint → Option ScreenCreditState → Int → Option CreditInterval →
      List CreditInterval
  | [], state, cursor, current =>
      if cursor < stop then
        let segment := creditSegment options [] state cursor stop current
        segment.1 ++ segment.2.toList
      else current.toList
  | point :: points, state, cursor, current =>
      if cursor < stop then
        let segmentEnd := min point.timestampNs stop
        let segment := if cursor < segmentEnd then
            creditSegment options (point :: points) state cursor segmentEnd current
          else ([], current)
        segment.1 ++ creditFrom options stop points (some point.state) segmentEnd segment.2
      else current.toList

/-- `creditable_intervals` -/
def creditableIntervals (points : List ScreenChangePoint) (start stop : Int)
    (options : BridgeOptions) : List CreditInterval :=
  creditFrom options stop (points.dropWhile fun point => point.timestampNs ≤ start)
    (screenStateAt points start) start none

/-- `intersect_intervals` -/
def intersectIntervals (left right : List CreditInterval) : List CreditInterval :=
  intersect left right

/-! ## Alive spans -/

variable {toleranceNs : Int} {boots : List Int} {spanStart last : Int} {timestamps : List Int}

theorem saturate64_mono {x y : Int} (h : x ≤ y) : saturate64 x ≤ saturate64 y :=
  max_le_max le_rfl (min_le_min le_rfl h)

/-- What breaks a span at an instant breaks it at every later one. -/
theorem breaks_mono {timestamp later : Int} (h : breaks toleranceNs boots last timestamp = true)
    (hle : timestamp ≤ later) : breaks toleranceNs boots last later = true := by
  unfold breaks at h ⊢
  rw [Bool.or_eq_true] at h ⊢
  rcases h with hgap | hboot
  · left
    have hmono := saturate64_mono (sub_le_sub_right hle last)
    simp only [Bool.not_eq_true', decide_eq_false_iff_not, not_le] at hgap ⊢
    exact hgap.trans_le hmono
  · right
    have hmono := saturate64_mono (add_le_add_left hle 10000000000)
    unfold booted at hboot ⊢
    split at hboot
    · simp only [decide_eq_true_eq] at hboot ⊢
      exact hboot.trans hmono
    · exact absurd hboot Bool.false_ne_true

theorem mem_aliveSpansFrom (hstart : spanStart ≤ last)
    (hsorted : (last :: timestamps).Pairwise (· ≤ ·)) {span : CreditInterval}
    (hspan : span ∈ aliveSpansFrom toleranceNs boots spanStart last timestamps) :
    spanStart ≤ span.1 ∧ span.1 ≤ span.2 := by
  induction timestamps generalizing spanStart last with
  | nil =>
      obtain rfl := List.mem_singleton.mp hspan
      exact ⟨le_rfl, hstart⟩
  | cons timestamp rest ih =>
      have hnext : last ≤ timestamp := List.rel_of_pairwise_cons hsorted List.mem_cons_self
      rw [aliveSpansFrom] at hspan
      split at hspan
      · rcases List.mem_cons.mp hspan with rfl | hspan
        · exact ⟨le_rfl, hstart⟩
        · have hlater := ih le_rfl hsorted.of_cons hspan
          exact ⟨(hstart.trans hnext).trans hlater.1, hlater.2⟩
      · exact ih (hstart.trans hnext) hsorted.of_cons hspan

/-- After a break at an instant no span of positive length begins at that same instant. -/
theorem lt_of_breaks (hbreaks : breaks toleranceNs boots last last = true)
    (hsorted : (last :: timestamps).Pairwise (· ≤ ·)) {span : CreditInterval}
    (hspan : span ∈ aliveSpansFrom toleranceNs boots last last timestamps)
    (hpositive : span.1 < span.2) : last < span.1 := by
  induction timestamps with
  | nil =>
      obtain rfl := List.mem_singleton.mp hspan
      exact absurd hpositive (lt_irrefl _)
  | cons timestamp rest ih =>
      have hnext : last ≤ timestamp := List.rel_of_pairwise_cons hsorted List.mem_cons_self
      rw [aliveSpansFrom, if_pos (breaks_mono hbreaks hnext)] at hspan
      rcases List.mem_cons.mp hspan with rfl | hspan
      · exact absurd hpositive (lt_irrefl _)
      · rcases hnext.lt_or_eq with hlt | rfl
        · exact hlt.trans_le (mem_aliveSpansFrom le_rfl hsorted.of_cons hspan).1
        · exact ih hsorted.of_cons hspan

/-- A later span of positive length begins after an earlier one has ended. -/
theorem pairwise_aliveSpansFrom (hstart : spanStart ≤ last)
    (hsorted : (last :: timestamps).Pairwise (· ≤ ·)) :
    (aliveSpansFrom toleranceNs boots spanStart last timestamps).Pairwise
      fun earlier later => later.1 < later.2 → earlier.2 < later.1 := by
  induction timestamps generalizing spanStart last with
  | nil => exact List.pairwise_singleton _ _
  | cons timestamp rest ih =>
      have hnext : last ≤ timestamp := List.rel_of_pairwise_cons hsorted List.mem_cons_self
      rw [aliveSpansFrom]
      split
      · case isTrue hbreaks =>
          refine List.pairwise_cons.mpr ⟨fun later hlater hpositive => ?_,
            ih le_rfl hsorted.of_cons⟩
          rcases hnext.lt_or_eq with hlt | rfl
          · exact hlt.trans_le (mem_aliveSpansFrom le_rfl hsorted.of_cons hlater).1
          · exact lt_of_breaks hbreaks hsorted.of_cons hlater hpositive
      · exact ih (hstart.trans hnext) hsorted.of_cons

/-- In an ordered stream a span of positive length begins after every earlier one has ended. -/
theorem pairwise_buildAliveSpans (hsorted : timestamps.Pairwise (· ≤ ·)) :
    (buildAliveSpans timestamps toleranceNs boots).Pairwise
      fun earlier later => later.1 < later.2 → earlier.2 < later.1 := by
  cases timestamps with
  | nil => exact .nil
  | cons first rest => exact pairwise_aliveSpansFrom le_rfl hsorted

theorem clipSpan_eq_some {start stop : Int} {span clipped : CreditInterval} :
    clipSpan start stop span = some clipped ↔
      clipped = (max span.1 start, min span.2 stop) ∧ clipped.1 < clipped.2 := by
  unfold clipSpan
  split
  · case isTrue h =>
      rw [Option.some.injEq]
      exact ⟨fun heq => ⟨heq.symm, heq ▸ h⟩, fun heq => heq.1.symm⟩
  · case isFalse h =>
      refine ⟨fun heq => absurd heq (by simp), fun ⟨heq, hlt⟩ => absurd ?_ h⟩
      rw [heq] at hlt
      exact hlt

/-- The clipped spans are apart and inside the window. -/
theorem apart_clipAliveSpans {spans : List CreditInterval} (start stop : Int)
    (hspans : spans.Pairwise fun earlier later => later.1 < later.2 → earlier.2 < later.1) :
    Apart start stop (clipAliveSpans spans start stop) := by
  have hclip : ∀ clipped ∈ clipAliveSpans spans start stop, ∃ span : CreditInterval,
      clipped = (max span.1 start, min span.2 stop) ∧ clipped.1 < clipped.2 := by
    intro clipped hclipped
    obtain ⟨span, _, hspan⟩ := List.mem_filterMap.mp hclipped
    exact ⟨span, clipSpan_eq_some.mp hspan⟩
  refine ⟨fun clipped hclipped => ?_, fun clipped hclipped => ?_, ?_⟩
  · obtain ⟨_, _, hpositive⟩ := hclip clipped hclipped
    exact hpositive
  · obtain ⟨_, rfl, _⟩ := hclip clipped hclipped
    exact ⟨le_max_right _ _, min_le_right _ _⟩
  · refine List.pairwise_filterMap.mpr (List.Pairwise.imp ?_
      ((hspans.sublist (List.dropWhile_sublist _)).sublist (List.takeWhile_sublist _)))
    intro earlier later hapart first hfirst second hsecond
    obtain ⟨rfl, -⟩ := clipSpan_eq_some.mp hfirst
    obtain ⟨rfl, hpositive⟩ := clipSpan_eq_some.mp hsecond
    have hlater : later.1 < later.2 :=
      (le_max_left _ _).trans_lt (hpositive.trans_le (min_le_left _ _))
    exact (min_le_left _ _).trans_lt ((hapart hlater).trans_le (le_max_left _ _))

/-! ## Screen stretches -/

section Screen

variable {options : BridgeOptions} {lower stop cursor segmentEnd : Int}
  {points : List ScreenChangePoint} {state : Option ScreenCreditState}
  {current : Option CreditInterval}

/-- The interval being built began no later than the cursor and reaches no further. -/
def Building (lower cursor : Int) (current : Option CreditInterval) : Prop :=
  ∀ interval ∈ current, lower ≤ interval.1 ∧ interval.1 < interval.2 ∧ interval.2 ≤ cursor

/-- One segment closes the interval being built, or carries it on to the segment's end, or begins
one at the cursor; what follows only has to keep apart from there. -/
theorem apart_creditSegment {rest : Option CreditInterval → List CreditInterval}
    (hcurrent : Building lower cursor current) (hlower : lower ≤ cursor)
    (hadvance : cursor < segmentEnd) (hstop : segmentEnd ≤ stop)
    (hrest : ∀ lower next, lower ≤ segmentEnd → Building lower segmentEnd next →
      Apart lower stop (rest next)) :
    Apart lower stop
      ((creditSegment options points state cursor segmentEnd current).1 ++
        rest (creditSegment options points state cursor segmentEnd current).2) := by
  have hnone : ∀ lower : Int, Building lower segmentEnd none := fun _ _ h => nomatch h
  have hlower' : lower ≤ segmentEnd := hlower.trans hadvance.le
  -- a carried interval keeps its beginning
  have hcarry : ∀ interval, current = some interval →
      Apart lower stop (rest (some (interval.1, segmentEnd))) := by
    rintro interval rfl
    obtain ⟨hfrom, hpositive, hreach⟩ := hcurrent interval rfl
    refine hrest lower _ hlower' fun next hnext => ?_
    obtain rfl := Option.mem_some.mp hnext
    exact ⟨hfrom, hpositive.trans (hreach.trans_lt hadvance), le_rfl⟩
  -- a closed interval ends before whatever begins at the segment's end or later
  have hclose : ∀ interval, current = some interval →
      Apart lower stop ([interval] ++ rest none) := by
    rintro interval rfl
    obtain ⟨hfrom, hpositive, hreach⟩ := hcurrent interval rfl
    have hlater := hrest segmentEnd none le_rfl (hnone _)
    refine (hlater.weaken hlower').cons hfrom hpositive (hreach.trans (hadvance.le.trans hstop))
      fun next hnext => ?_
    exact (hreach.trans_lt hadvance).trans_le (hlater.within next hnext).1
  unfold creditSegment
  split
  · case h_1 interval => exact hcarry interval rfl
  · refine hrest lower _ hlower' fun next hnext => ?_
    obtain rfl := Option.mem_some.mp hnext
    exact ⟨hlower, hadvance, le_rfl⟩
  · case h_3 interval =>
      split
      · exact hcarry interval rfl
      · exact hclose interval rfl
  · case h_4 interval => exact hclose interval rfl
  · exact hrest lower none hlower' (hnone _)

theorem Building.apart_toList (hcurrent : Building lower cursor current) (hcursor : cursor ≤ stop) :
    Apart lower stop current.toList := by
  cases current with
  | none => exact apart_nil
  | some interval =>
      obtain ⟨hfrom, hpositive, hreach⟩ := hcurrent interval rfl
      exact apart_singleton hfrom hpositive (hreach.trans hcursor)

theorem apart_creditFrom (hcurrent : Building lower cursor current) (hlower : lower ≤ cursor)
    (hcursor : cursor ≤ stop) (hsorted : points.Pairwise fun a b => a.timestampNs ≤ b.timestampNs)
    (hahead : ∀ point ∈ points, cursor ≤ point.timestampNs) :
    Apart lower stop (creditFrom options stop points state cursor current) := by
  induction points generalizing lower state cursor current with
  | nil =>
      rw [creditFrom]
      split
      · case isTrue hadvance =>
          exact apart_creditSegment hcurrent hlower hadvance le_rfl
            fun _ _ _ hnext => hnext.apart_toList le_rfl
      · exact hcurrent.apart_toList hcursor
  | cons point points ih =>
      obtain ⟨hfirst, hsorted⟩ := List.pairwise_cons.mp hsorted
      have hpoint := hahead point List.mem_cons_self
      have hlater : ∀ next ∈ points, min point.timestampNs stop ≤ next.timestampNs :=
        fun next hnext => (min_le_left _ _).trans (hfirst next hnext)
      rw [creditFrom]
      split
      · dsimp only
        split
        · case isTrue hadvance =>
            exact apart_creditSegment hcurrent hlower hadvance (min_le_right _ _)
              fun _ _ hlower hnext => ih hnext hlower (min_le_right _ _) hsorted hlater
        · -- the change is at the cursor itself: only the state is read
          case isFalse hstay =>
            have hsame : min point.timestampNs stop = cursor :=
              le_antisymm (not_lt.mp hstay) (le_min hpoint hcursor)
            rw [hsame] at hlater ⊢
            exact ih hcurrent hlower hcursor hsorted hlater
      · exact hcurrent.apart_toList hcursor

/-- The creditable intervals are apart and inside the window. -/
theorem apart_creditableIntervals {start : Int} (hle : start ≤ stop)
    (hsorted : points.Pairwise fun a b => a.timestampNs ≤ b.timestampNs) :
    Apart start stop (creditableIntervals points start stop options) := by
  refine apart_creditFrom (fun _ h => nomatch h) le_rfl hle
    (hsorted.sublist (List.dropWhile_sublist _)) ?_
  induction points with
  | nil => exact fun point hpoint => absurd hpoint List.not_mem_nil
  | cons point points ih =>
      rw [List.dropWhile_cons]
      split
      · exact ih hsorted.of_cons
      · case isFalse hafter =>
          have hstart : start < point.timestampNs := by simpa using hafter
          rintro next hnext
          rcases List.mem_cons.mp hnext with rfl | hnext
          · exact hstart.le
          · exact hstart.le.trans (List.rel_of_pairwise_cons hsorted hnext)

end Screen

/-! ## The common part of two lists -/

/-- The common part of two lists in order is in order and covers what both lists cover. -/
theorem intersectIntervals_inOrder {left right : List CreditInterval} (hleft : InOrder left)
    (hright : InOrder right) : InOrder (intersectIntervals left right) ∧
      ∀ t, Covers (intersectIntervals left right) t ↔ Covers left t ∧ Covers right t :=
  ⟨hleft.intersect hright, fun _ => hleft.covers_intersect hright⟩

/-- Two intervals that touch, and one that reaches into both and ends where the second does. -/
theorem intersectIntervals_touching :
    InOrder (intersectIntervals [(0, 5), (5, 10)] [(3, 10)]) ∧
      ∀ t, Covers (intersectIntervals [(0, 5), (5, 10)] [(3, 10)]) t ↔
        Covers [(0, 5), (5, 10)] t ∧ Covers [(3, 10)] t :=
  intersectIntervals_inOrder ⟨by decide, by decide⟩ ⟨by decide, by decide⟩

end Chronicle.Credit
