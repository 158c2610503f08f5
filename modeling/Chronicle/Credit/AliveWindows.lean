import Chronicle.Credit.Intervals
import Chronicle.Library.Bisection

/-!
# Alive spans of a window

The spans of the whole stream are built once and clipped to each window. The reference takes the
events within the tolerance of the window and builds spans from these alone. An event left out ends
its span outside the window, since the next event is no further than the tolerance away; only a
difference that saturates can hide how far apart two joined events are.
-/

namespace Chronicle.Credit

open Chronicle.Library Chronicle.Library.Machine

/-- `bisect_left` -/
def bisectLeft (values : List Int) (target : Int) : Nat :=
  bisect (fun value => value < target) 0 values

/-- The slice `timestamps[lower..upper]`, which panics if its ends are the wrong way round. -/
def slice (timestamps : List Int) (lower upper : Nat) : Option (List Int) :=
  if lower ≤ upper then some ((timestamps.take upper).drop lower) else none

/-- `reference_alive_intervals` -/
def referenceAliveIntervals (timestamps : List Int) (start stop toleranceNs : Int)
    (boots : List Int) : Option (List CreditInterval) :=
  let lower := bisectLeft timestamps (saturate64 (start - toleranceNs))
  let upper := bisectRight timestamps (saturate64 (stop + toleranceNs))
  (slice timestamps lower upper).map fun window =>
    (buildAliveSpans window toleranceNs boots).filterMap (clipSpan start stop)

theorem bisectRightFrom_eq (values : List Int) (target : Int) (fuel low high : Nat) :
    bisectRightFrom values target fuel low high =
      bisectFrom (fun value => value ≤ target) 0 values fuel low high := by
  induction fuel generalizing low high with
  | zero => rfl
  | succ fuel ih => simp only [bisectRightFrom, bisectFrom, ih, decide_eq_true_eq]

theorem bisectRight_eq (values : List Int) (target : Int) :
    bisectRight values target = bisect (fun value => value ≤ target) 0 values :=
  bisectRightFrom_eq values target _ _ _

variable {toleranceNs start stop spanStart last : Int} {boots timestamps : List Int}

theorem partitioned_lt (hsorted : timestamps.Pairwise (· ≤ ·)) (target : Int) :
    Partitioned (fun value => decide (value < target)) timestamps :=
  hsorted.imp fun hle hlt => by
    rw [decide_eq_true_eq] at hlt ⊢
    exact hle.trans_lt hlt

theorem partitioned_le (hsorted : timestamps.Pairwise (· ≤ ·)) (target : Int) :
    Partitioned (fun value => decide (value ≤ target)) timestamps :=
  hsorted.imp fun hle hlt => by
    rw [decide_eq_true_eq] at hlt ⊢
    exact hle.trans hlt

/-- The slice of the reference: the stream without a part that lies before the lower bound and one
that lies behind the upper bound. -/
theorem exists_slice (hsorted : timestamps.Pairwise (· ≤ ·)) {lower upper : Int}
    (hle : lower ≤ upper) :
    ∃ before window behind, timestamps = before ++ (window ++ behind) ∧
      slice timestamps (bisectLeft timestamps lower) (bisectRight timestamps upper) = some window ∧
      (∀ t ∈ before, t < lower) ∧ ∀ t ∈ behind, upper < t := by
  have hpartLower := partitioned_lt hsorted lower
  have hpartUpper := partitioned_le hsorted upper
  have hplaces : bisectLeft timestamps lower ≤ bisectRight timestamps upper := by
    rw [bisectRight_eq]
    refine bisect_le_bisect hpartLower hpartUpper fun t ht => ?_
    rw [decide_eq_true_eq] at ht ⊢
    exact ht.le.trans hle
  refine ⟨timestamps.take (bisectLeft timestamps lower), _,
    timestamps.drop (bisectRight timestamps upper), ?_, if_pos hplaces, fun t ht => ?_,
    fun t ht => ?_⟩
  · have htake : timestamps.take (bisectLeft timestamps lower) =
        (timestamps.take (bisectRight timestamps upper)).take (bisectLeft timestamps lower) := by
      rw [List.take_take, min_eq_left hplaces]
    rw [htake, ← List.append_assoc, List.take_append_drop, List.take_append_drop]
  · exact of_decide_eq_true (below_of_mem_take_bisect hpartLower ht)
  · rw [bisectRight_eq] at ht
    exact not_le.mp (of_decide_eq_false (not_below_of_mem_drop_bisect hpartUpper ht))

/-! ## What a window sees of the spans -/

/-- The part inside the window of the spans that an open one and the coming events make. -/
def seenFrom (toleranceNs : Int) (boots : List Int) (start stop spanStart last : Int)
    (timestamps : List Int) : List CreditInterval :=
  (aliveSpansFrom toleranceNs boots spanStart last timestamps).filterMap (clipSpan start stop)

/-- The part inside the window of the spans of a stream. -/
def seen (toleranceNs : Int) (boots : List Int) (start stop : Int) (timestamps : List Int) :
    List CreditInterval :=
  (buildAliveSpans timestamps toleranceNs boots).filterMap (clipSpan start stop)

theorem clipSpan_eq_none {span : CreditInterval}
    (h : min span.2 stop ≤ max span.1 start) : clipSpan start stop span = none :=
  if_neg (not_lt.mpr h)

theorem seenFrom_cons (timestamp : Int) :
    seenFrom toleranceNs boots start stop spanStart last (timestamp :: timestamps) =
      if breaks toleranceNs boots last timestamp then
        (clipSpan start stop (spanStart, last)).toList ++
          seenFrom toleranceNs boots start stop timestamp timestamp timestamps
      else seenFrom toleranceNs boots start stop spanStart timestamp timestamps := by
  unfold seenFrom
  rw [aliveSpansFrom]
  split
  · rw [List.filterMap_cons]
    cases clipSpan start stop (spanStart, last) <;> rfl
  · rfl

/-- Where a span began before the window does not show inside it. -/
theorem seenFrom_of_le_start {other : Int} (hspan : spanStart ≤ start) (hother : other ≤ start) :
    seenFrom toleranceNs boots start stop spanStart last timestamps =
      seenFrom toleranceNs boots start stop other last timestamps := by
  have hclip : ∀ last,
      clipSpan start stop (spanStart, last) = clipSpan start stop (other, last) := by
    intro last
    simp only [clipSpan, max_eq_right hspan, max_eq_right hother]
  induction timestamps generalizing last with
  | nil => simp only [seenFrom, aliveSpansFrom, List.filterMap_cons, hclip]
  | cons timestamp rest ih => rw [seenFrom_cons, seenFrom_cons, hclip, ih]

/-- Once a span has reached the window's end, no later event shows inside the window. -/
theorem seenFrom_of_stop_le (hlast : stop ≤ last) (hlater : ∀ t ∈ timestamps, stop ≤ t) :
    seenFrom toleranceNs boots start stop spanStart last timestamps =
      (clipSpan start stop (spanStart, stop)).toList := by
  have hclip : ∀ spanStart last, stop ≤ last →
      clipSpan start stop (spanStart, last) = clipSpan start stop (spanStart, stop) := by
    intro spanStart last hlast
    simp only [clipSpan, min_eq_right hlast, min_self]
  induction timestamps generalizing last spanStart with
  | nil =>
      rw [seenFrom, aliveSpansFrom, List.filterMap_cons, hclip spanStart last hlast]
      cases clipSpan start stop (spanStart, stop) <;> rfl
  | cons timestamp rest ih =>
      have hhead := hlater timestamp List.mem_cons_self
      have hrest : ∀ t ∈ rest, stop ≤ t := fun t ht => hlater t (List.mem_cons_of_mem _ ht)
      rw [seenFrom_cons]
      split
      · have hnone : clipSpan start stop (timestamp, stop) = none :=
          clipSpan_eq_none ((min_le_left _ _).trans (hhead.trans (le_max_left _ _)))
        rw [hclip spanStart last hlast, ih hhead hrest, hnone, Option.toList_none, List.append_nil]
      · exact ih hhead hrest

/-- A joined pair of events is no further apart than the tolerance. -/
def JoinsWithin (toleranceNs : Int) (boots : List Int) (timestamps : List Int) : Prop :=
  ∀ a ∈ timestamps, ∀ b ∈ timestamps, breaks toleranceNs boots a b = false → b - a ≤ toleranceNs

theorem JoinsWithin.subset {fewer : List Int} (h : JoinsWithin toleranceNs boots timestamps)
    (hsub : fewer ⊆ timestamps) : JoinsWithin toleranceNs boots fewer :=
  fun a ha b hb => h a (hsub ha) b (hsub hb)

/-- The saturated difference exceeds the tolerance with the exact one, unless the tolerance is
itself the largest value. -/
theorem joinsWithin (hexact : toleranceNs < i64Max ∨
      ∀ a ∈ timestamps, ∀ b ∈ timestamps, b - a ≤ i64Max) :
    JoinsWithin toleranceNs boots timestamps := by
  intro a ha b hb hbreaks
  unfold breaks at hbreaks
  rw [Bool.or_eq_false_iff, Bool.not_eq_false', decide_eq_true_eq] at hbreaks
  have hgap := hbreaks.1
  unfold saturate64 at hgap
  rcases hexact with htolerance | hfits
  · omega
  · have hfit := hfits a ha b hb
    omega

/-- An event that comes before the window by more than the tolerance does not show inside it. -/
theorem seen_append_before {before : List Int}
    (hjoin : JoinsWithin toleranceNs boots (before ++ timestamps))
    (hbefore : ∀ t ∈ before, t < start - toleranceNs) (htolerance : 0 ≤ toleranceNs) :
    seen toleranceNs boots start stop (before ++ timestamps) =
      seen toleranceNs boots start stop timestamps := by
  induction before with
  | nil => rfl
  | cons first before ih =>
      have hrest := ih (hjoin.subset (List.subset_cons_self _ _))
        fun t ht => hbefore t (List.mem_cons_of_mem _ ht)
      have hfirst := hbefore first List.mem_cons_self
      have hnone : ∀ stop, clipSpan start stop (first, first) = none := fun stop =>
        clipSpan_eq_none ((min_le_left _ _).trans ((show first ≤ start by omega).trans
          (le_max_right _ _)))
      rw [← hrest, List.cons_append]
      change seenFrom toleranceNs boots start stop first first (before ++ timestamps) = _
      cases hcoming : before ++ timestamps with
      | nil => simp [seenFrom, aliveSpansFrom, hnone, seen, buildAliveSpans]
      | cons second rest =>
          have hsecond : second ∈ first :: before ++ timestamps :=
            List.mem_cons_of_mem first (show second ∈ before ++ timestamps by simp [hcoming])
          rw [seenFrom_cons, hnone]
          change _ = seenFrom toleranceNs boots start stop second second rest
          split
          · rfl
          · case isFalse hjoined =>
              -- the next event is still before the window
              have hgap := hjoin first List.mem_cons_self second
                hsecond
                (Bool.not_eq_true _ ▸ hjoined)
              exact seenFrom_of_le_start (by omega) (by omega)

theorem seenFrom_append_behind {behind : List Int}
    (hjoin : JoinsWithin toleranceNs boots (last :: (timestamps ++ behind)))
    (hbehind : ∀ t ∈ behind, stop + toleranceNs < t) (htolerance : 0 ≤ toleranceNs) :
    seenFrom toleranceNs boots start stop spanStart last (timestamps ++ behind) =
      seenFrom toleranceNs boots start stop spanStart last timestamps := by
  induction timestamps generalizing last spanStart with
  | nil =>
      have hafter : ∀ t ∈ behind, stop ≤ t := fun t ht => by
        have hlt := hbehind t ht
        omega
      cases behind with
      | nil => rfl
      | cons first behind =>
          have hfirst := hbehind first List.mem_cons_self
          have hlater : ∀ t ∈ behind, stop ≤ t := fun t ht => hafter t (List.mem_cons_of_mem _ ht)
          rw [List.nil_append, seenFrom_cons]
          split
          · have hnone : clipSpan start stop (first, stop) = none :=
              clipSpan_eq_none ((min_le_left _ _).trans
                ((hafter first List.mem_cons_self).trans (le_max_left _ _)))
            rw [seenFrom_of_stop_le (hafter first List.mem_cons_self) hlater, hnone]
            cases hclip : clipSpan start stop (spanStart, last) <;>
              simp [seenFrom, aliveSpansFrom, hclip]
          · case isFalse hjoined =>
              -- the last event of the window is already at its end
              have hgap := hjoin last List.mem_cons_self first
                (List.mem_cons_of_mem _ List.mem_cons_self) (Bool.not_eq_true _ ▸ hjoined)
              rw [seenFrom_of_stop_le (hafter first List.mem_cons_self) hlater,
                seenFrom_of_stop_le (by omega) (fun _ h => absurd h List.not_mem_nil)]
  | cons timestamp rest ih =>
      have hrest : JoinsWithin toleranceNs boots (timestamp :: (rest ++ behind)) :=
        hjoin.subset (List.subset_cons_self _ _)
      rw [List.cons_append, seenFrom_cons, seenFrom_cons, ih hrest, ih hrest]

/-- Nor does one that comes after the window by more than the tolerance. -/
theorem seen_append_behind {behind : List Int}
    (hjoin : JoinsWithin toleranceNs boots (timestamps ++ behind))
    (hbehind : ∀ t ∈ behind, stop + toleranceNs < t) (htolerance : 0 ≤ toleranceNs) :
    seen toleranceNs boots start stop (timestamps ++ behind) =
      seen toleranceNs boots start stop timestamps := by
  cases timestamps with
  | cons first rest => exact seenFrom_append_behind hjoin hbehind htolerance
  | nil =>
      cases behind with
      | nil => rfl
      | cons first behind =>
          have hafter : ∀ t ∈ first :: behind, stop ≤ t := fun t ht => by
            have hlt := hbehind t ht
            omega
          have hfirst := hafter first List.mem_cons_self
          change seenFrom toleranceNs boots start stop first first behind = []
          rw [seenFrom_of_stop_le hfirst fun t ht => hafter t (List.mem_cons_of_mem _ ht),
            clipSpan_eq_none ((min_le_left _ _).trans (hfirst.trans (le_max_left _ _)))]
          rfl

/-! ## The spans of the whole stream -/

/-- A later span begins no earlier than an earlier one has ended. -/
theorem pairwise_ends_aliveSpansFrom (hsorted : (last :: timestamps).Pairwise (· ≤ ·)) :
    (aliveSpansFrom toleranceNs boots spanStart last timestamps).Pairwise
      fun earlier later => earlier.2 ≤ later.1 := by
  induction timestamps generalizing spanStart last with
  | nil => exact List.pairwise_singleton _ _
  | cons timestamp rest ih =>
      have hnext : last ≤ timestamp := List.rel_of_pairwise_cons hsorted List.mem_cons_self
      rw [aliveSpansFrom]
      split
      · exact List.pairwise_cons.mpr ⟨fun later hlater =>
          hnext.trans (mem_aliveSpansFrom le_rfl hsorted.of_cons hlater).1, ih hsorted.of_cons⟩
      · exact ih hsorted.of_cons

theorem pairwise_starts_buildAliveSpans (hsorted : timestamps.Pairwise (· ≤ ·)) :
    (buildAliveSpans timestamps toleranceNs boots).Pairwise
      fun earlier later => earlier.1 ≤ later.1 := by
  cases timestamps with
  | nil => exact .nil
  | cons first rest =>
      exact (pairwise_ends_aliveSpansFrom hsorted).imp_of_mem fun hearlier _ h =>
        (mem_aliveSpansFrom le_rfl hsorted hearlier).2.trans h

theorem filterMap_takeWhile_begins {spans : List CreditInterval}
    (hstarts : spans.Pairwise fun earlier later => earlier.1 ≤ later.1) :
    (spans.takeWhile fun span => span.1 < stop).filterMap (clipSpan start stop) =
      spans.filterMap (clipSpan start stop) := by
  induction spans with
  | nil => rfl
  | cons span rest ih =>
      obtain ⟨hfirst, hrest⟩ := List.pairwise_cons.mp hstarts
      rw [List.takeWhile_cons]
      split
      · rw [List.filterMap_cons, List.filterMap_cons, ih hrest]
      · case isFalse hbegins =>
          have hbehind : ∀ later ∈ span :: rest, stop ≤ later.1 := by
            have hspan : stop ≤ span.1 := not_lt.mp (of_decide_eq_false (by simpa using hbegins))
            exact List.forall_mem_cons.mpr ⟨hspan, fun later hlater =>
              hspan.trans (hfirst later hlater)⟩
          rw [List.filterMap_nil, eq_comm, List.filterMap_eq_nil_iff]
          exact fun later hlater => clipSpan_eq_none
            ((min_le_right _ _).trans ((hbehind later hlater).trans (le_max_left _ _)))

theorem filterMap_dropWhile_ends (spans : List CreditInterval) :
    (spans.dropWhile fun span => span.2 ≤ start).filterMap (clipSpan start stop) =
      spans.filterMap (clipSpan start stop) := by
  induction spans with
  | nil => rfl
  | cons span rest ih =>
      rw [List.dropWhile_cons]
      split
      · case isTrue hends =>
          rw [ih, List.filterMap_cons, clipSpan_eq_none
            ((min_le_left _ _).trans ((of_decide_eq_true hends).trans (le_max_right _ _)))]
      · rfl

/-- The spans begin in order, so leaving out those that end before the window and stopping at the
first one that begins behind it loses nothing inside it. -/
theorem clipAliveSpans_eq {spans : List CreditInterval}
    (hstarts : spans.Pairwise fun earlier later => earlier.1 ≤ later.1) :
    clipAliveSpans spans start stop = spans.filterMap (clipSpan start stop) := by
  unfold clipAliveSpans
  rw [filterMap_takeWhile_begins (hstarts.sublist (List.dropWhile_sublist _)),
    filterMap_dropWhile_ends]

/-- Clipping the spans of the whole stream gives what the reference builds from the events within
the tolerance of the window. -/
theorem clip_alive_spans_eq_reference (hsorted : timestamps.Pairwise (· ≤ ·))
    (htimestamps : ∀ t ∈ timestamps, Fits64 t) (hwindow : start < stop)
    (htolerance : 0 ≤ toleranceNs) (hexact : toleranceNs < i64Max ∨
      ∀ a ∈ timestamps, ∀ b ∈ timestamps, b - a ≤ i64Max) :
    referenceAliveIntervals timestamps start stop toleranceNs boots =
      some (clipAliveSpans (buildAliveSpans timestamps toleranceNs boots) start stop) := by
  have hbounds : saturate64 (start - toleranceNs) ≤ saturate64 (stop + toleranceNs) :=
    saturate64_mono (by omega)
  obtain ⟨before, window, behind, hsplit, hslice, hbefore, hbehind⟩ :=
    exists_slice hsorted hbounds
  have hjoin : JoinsWithin toleranceNs boots timestamps := joinsWithin hexact
  rw [clipAliveSpans_eq (pairwise_starts_buildAliveSpans hsorted), referenceAliveIntervals,
    hslice, Option.map_some, Option.some.injEq]
  rw [hsplit] at hjoin htimestamps ⊢
  have hmin : ∀ t ∈ before, t < start - toleranceNs := by
    intro t ht
    have hlow := (htimestamps t (List.mem_append_left _ ht)).1
    have hbelow := hbefore t ht
    unfold saturate64 at hbelow
    omega
  have hmax : ∀ t ∈ behind, stop + toleranceNs < t := by
    intro t ht
    have hhigh := (htimestamps t (List.mem_append_right _ (List.mem_append_right _ ht))).2
    have habove := hbehind t ht
    unfold saturate64 at habove
    omega
  change seen toleranceNs boots start stop window = seen toleranceNs boots start stop _
  rw [seen_append_before hjoin hmin htolerance,
    seen_append_behind (hjoin.subset (List.subset_append_right _ _)) hmax htolerance]

/-- Two bursts of events that a boot separates, and a window over the second. -/
theorem clip_alive_spans_eq_reference_boot :
    let timestamps := [0, 3, 5, 20000000000, 20000000004]
    referenceAliveIntervals timestamps 2 20000000003 30 [1] =
        some (clipAliveSpans (buildAliveSpans timestamps 30 [1]) 2 20000000003) ∧
      clipAliveSpans (buildAliveSpans timestamps 30 [1]) 2 20000000003 =
        [(3, 5), (20000000000, 20000000003)] :=
  ⟨clip_alive_spans_eq_reference (by decide) (by decide) (by decide) (by decide)
    (.inl (by decide)), by decide⟩

/-- With the largest tolerance a saturated difference joins any two events, but the window of the
reference still ends before the first of them. -/
theorem alive_spans_differ_at_largest_tolerance :
    ¬ ∀ (timestamps boots : List Int) (toleranceNs start stop : Int),
      timestamps.Pairwise (· ≤ ·) → boots.Pairwise (· ≤ ·) → (∀ t ∈ timestamps, Fits64 t) →
      0 ≤ toleranceNs → Fits64 toleranceNs → Fits64 start → Fits64 stop → start < stop →
        referenceAliveIntervals timestamps start stop toleranceNs boots =
          some (clipAliveSpans (buildAliveSpans timestamps toleranceNs boots) start stop) := by
  intro h
  have hextreme := h [i64Min, 100] [] i64Max 0 50 (by decide) .nil (by decide) (by decide)
    (by decide) (by decide) (by decide) (by decide)
  exact absurd hextreme (by decide)

end Chronicle.Credit
