import Chronicle.Library.Loop
import Chronicle.Library.Machine
import Chronicle.Matcher.Basic

/-!
# GESIS start-stop repair

Every opener is closed in one of three ways: at a stop candidate of its own app that is near enough,
at the next row of any app that comes within the timeout, or by the clock. The candidates are found
in one pass from the last row to the first, which remembers the next pool row of each app.
-/

namespace Chronicle.Matcher

open Chronicle.Library.Loop Chronicle.Library.Machine

/-- The arrays of `match_app_usage_gesis_with_openers_indices_core`. -/
structure GesisArrays where
  appCodes : Array Int
  timestampNs : Array Int
  eligibleOpener : Array Bool
  baselineClassifiedStart : Array Bool
  stop : Array Bool
  stopMatchable : Array Bool
  androidPseudoPackage : Array Bool
deriving DecidableEq, Repr

namespace GesisArrays

variable (a : GesisArrays)

/-- The number of rows. -/
def len : Nat := a.appCodes.size

/-- `app_codes[i]`. -/
def appCode (i : Nat) : Int := a.appCodes.getD i 0

/-- `timestamp_ns[i]`. -/
def timestamp (i : Nat) : Int := a.timestampNs.getD i 0

/-- `is_stop[i]`. -/
def isStop (i : Nat) : Bool := a.stop.getD i false

/-- The row is one of the stop table's rows, a start or a stop of a type that it keeps. -/
def inPool (i : Nat) : Bool :=
  a.stopMatchable.getD i false && (a.baselineClassifiedStart.getD i false || a.isStop i)

/-- The row opens an episode. -/
def opens (i : Nat) : Bool :=
  a.eligibleOpener.getD i false && !a.androidPseudoPackage.getD i false

/-- Every array has as many cells as there are app codes. -/
def SameLengths : Prop :=
  a.timestampNs.size = a.len ∧ a.eligibleOpener.size = a.len ∧
    a.baselineClassifiedStart.size = a.len ∧ a.stop.size = a.len ∧ a.stopMatchable.size = a.len ∧
    a.androidPseudoPackage.size = a.len

instance : Decidable a.SameLengths := inferInstanceAs (Decidable (_ ∧ _))

end GesisArrays

/-- `is_stop_candidate` and `next_pool_row`. -/
structure PoolScan where
  isStopCandidate : Array Bool
  nextPoolRow : Int → Option Nat

section Matcher

variable (a : GesisArrays)

/-- One pass of the candidate loop. -/
def poolStep (index : Nat) (scan : PoolScan) : PoolScan :=
  if a.inPool index then
    let followedByStop := (scan.nextPoolRow (a.appCode index)).any a.isStop
    { isStopCandidate := scan.isStopCandidate.setIfInBounds index !followedByStop
      nextPoolRow := fun code =>
        if code = a.appCode index then some index else scan.nextPoolRow code }
  else scan

/-- The candidate table; the loop runs from the last row to the first. -/
def isStopCandidate : Array Bool :=
  ((List.range a.len).foldr (poolStep a)
    { isStopCandidate := Array.replicate a.len false
      nextPoolRow := fun _ => none }).isStopCandidate

/-- `(index + 1..len).find(..)`: the nearest stop candidate of the same app. -/
def stopCandidateAfter (index : Nat) : Option Nat :=
  (List.range' (index + 1) (a.len - (index + 1))).find? fun probe =>
    (isStopCandidate a).getD probe false && a.appCode probe == a.appCode index

variable (maxTimeoutNs : Int) (eventThreshold : Nat)

/-- The next row of any app comes within the timeout. -/
def nextGlobalWithinTimeout (index : Nat) : Bool :=
  decide (index + 1 < a.len) &&
    decide (saturate64 (a.timestamp (index + 1) - a.timestamp index) ≤ maxTimeoutNs)

/-- The close of one opener: the row it points at, the instant of a close by the clock, and the
reason. -/
def gesisClose (index : Nat) : Nat × Option Int × EpisodeCloseReason :=
  let fallback :=
    if nextGlobalWithinTimeout a maxTimeoutNs index then (index + 1, none, .gesisNextGlobalEvent)
    else (index, some (saturate64 (a.timestamp index + maxTimeoutNs)), .gesisTimeout)
  match stopCandidateAfter a index with
  | some stop =>
      if stop - index - 1 ≤ eventThreshold then (stop, none, .gesisOriginalStop) else fallback
  | none => fallback

/-- One pass of the main loop. -/
def gesisStep (out : MatchUpdateIndices) (index : Nat) : MatchUpdateIndices :=
  if a.opens index then
    let (stopIndex, stopNs, reason) := gesisClose a maxTimeoutNs eventThreshold index
    { out with
      startIndices := out.startIndices ++ [index]
      stopStartIndices := out.stopStartIndices ++ [index]
      stopEventIndices := out.stopEventIndices ++ [stopIndex]
      stopTimestampsNs := out.stopTimestampsNs ++ [stopNs]
      stopReasons := out.stopReasons ++ [reason] }
  else out

/-- `match_app_usage_gesis_with_openers_indices_core` -/
def matchAppUsageGesisWithOpenersIndicesCore : MatcherResult MatchUpdateIndices :=
  if a.SameLengths then
    .ok ((List.range a.len).foldl (gesisStep a maxTimeoutNs eventThreshold)
      { startIndices := []
        stopStartIndices := []
        stopEventIndices := []
        missingIndices := []
        stopReasons := []
        missingReasons := []
        stopTimestampsNs := [] })
  else .error lengthError

end Matcher

/-- `match_app_usage_gesis_indices_core`: every start opens an episode. -/
def matchAppUsageGesisIndicesCore (appCodes timestampNs : Array Int)
    (isStart isStop stopMatchable androidPseudoPackage : Array Bool) (maxTimeoutNs : Int)
    (eventThreshold : Nat) : MatcherResult MatchUpdateIndices :=
  matchAppUsageGesisWithOpenersIndicesCore
    ⟨appCodes, timestampNs, isStart, isStart, isStop, stopMatchable, androidPseudoPackage⟩
    maxTimeoutNs eventThreshold

/-! ## The rule -/

namespace GesisArrays

variable (a : GesisArrays)

/-- The next pool row of the row's app. -/
def NextPoolRow (index next : Nat) : Prop :=
  (index < next ∧ next < a.len ∧ a.inPool next = true ∧ a.appCode next = a.appCode index) ∧
    ∀ between, index < between → between < next → a.inPool between = true →
      a.appCode between ≠ a.appCode index

/-- A pool row whose next pool row of the same app is not a stop. -/
def EndsRun (index : Nat) : Prop :=
  a.inPool index = true ∧ ∀ next, a.NextPoolRow index next → a.isStop next = false

/-- The first later row of the opener's app that ends a run. -/
def Candidate (opener stop : Nat) : Prop :=
  (opener < stop ∧ stop < a.len ∧ a.appCode stop = a.appCode opener ∧ a.EndsRun stop) ∧
    ∀ earlier, opener < earlier → earlier < stop → a.appCode earlier = a.appCode opener →
      ¬ a.EndsRun earlier

/-- The episode is closed at a candidate that few enough rows part from its opener. -/
def ClosesOriginally (eventThreshold opener stop : Nat) : Prop :=
  a.Candidate opener stop ∧ stop - opener - 1 ≤ eventThreshold

/-- The next row of any app comes within the timeout, as `elapsed` measures it. -/
def WithinTimeout (elapsed : Int → Int) (maxTimeoutNs : Int) (opener : Nat) : Prop :=
  opener + 1 < a.len ∧ elapsed (a.timestamp (opener + 1) - a.timestamp opener) ≤ maxTimeoutNs

end GesisArrays

/-- How an opener's episode ends: the row recorded, the instant if no row carries it, the reason. -/
inductive GesisCloses (a : GesisArrays) (elapsed : Int → Int) (maxTimeoutNs : Int)
    (eventThreshold opener : Nat) : Nat → Option Int → EpisodeCloseReason → Prop where
  | original (stop : Nat) (h : a.ClosesOriginally eventThreshold opener stop) :
      GesisCloses a elapsed maxTimeoutNs eventThreshold opener stop none .gesisOriginalStop
  | nextGlobal (hfar : ∀ stop, ¬ a.ClosesOriginally eventThreshold opener stop)
      (hwithin : a.WithinTimeout elapsed maxTimeoutNs opener) :
      GesisCloses a elapsed maxTimeoutNs eventThreshold opener (opener + 1) none
        .gesisNextGlobalEvent
  | timeout (hfar : ∀ stop, ¬ a.ClosesOriginally eventThreshold opener stop)
      (hlate : ¬ a.WithinTimeout elapsed maxTimeoutNs opener) :
      GesisCloses a elapsed maxTimeoutNs eventThreshold opener opener
        (some (saturate64 (a.timestamp opener + maxTimeoutNs))) .gesisTimeout

/-- What the parallel lists hold at a place is the close that the rule gives the opener. -/
def ClosedByRule (a : GesisArrays) (elapsed : Int → Int) (maxTimeoutNs : Int) (eventThreshold : Nat)
    (out : MatchUpdateIndices) (place opener : Nat) : Prop :=
  ∃ (stop : Nat) (time : Option Int) (reason : EpisodeCloseReason),
    out.stopEventIndices[place]? = some stop ∧ out.stopTimestampsNs[place]? = some time ∧
      out.stopReasons[place]? = some reason ∧
      GesisCloses a elapsed maxTimeoutNs eventThreshold opener stop time reason

/-! ## The candidate table -/

section Candidates

variable {a : GesisArrays} {index : Nat}

/-- What the candidate loop knows once it has visited the rows from `index` on. -/
structure PoolScanned (a : GesisArrays) (index : Nat) (scan : PoolScan) : Prop where
  size : scan.isStopCandidate.size = a.len
  next : ∀ code next, scan.nextPoolRow code = some next ↔
    (index ≤ next ∧ next < a.len ∧ a.inPool next = true ∧ a.appCode next = code) ∧
      ∀ between, index ≤ between → between < next → a.inPool between = true →
        a.appCode between ≠ code
  candidates : ∀ i, scan.isStopCandidate.getD i false = true ↔
    index ≤ i ∧ i < a.len ∧ a.EndsRun i

theorem poolScanned_start : PoolScanned a a.len
    { isStopCandidate := Array.replicate a.len false
      nextPoolRow := fun _ => none } where
  size := Array.size_replicate
  next := fun code next => by
    refine iff_of_false (by simp) fun h => ?_
    omega
  candidates := fun i => by
    refine iff_of_false ?_ fun h => by omega
    rw [Array.getD_eq_getD_getElem?, Array.getElem?_replicate]
    split <;> simp

/-- Among the rows visited, the next pool row of a row's app is the one remembered for the app. -/
theorem PoolScanned.nextPoolRow_iff {scan : PoolScan} (h : PoolScanned a (index + 1) scan)
    (next : Nat) : scan.nextPoolRow (a.appCode index) = some next ↔ a.NextPoolRow index next :=
  h.next (a.appCode index) next

theorem PoolScanned.endsRun_iff {scan : PoolScan} (h : PoolScanned a (index + 1) scan)
    (hpool : a.inPool index = true) :
    (!(scan.nextPoolRow (a.appCode index)).any a.isStop) = true ↔ a.EndsRun index := by
  unfold GesisArrays.EndsRun
  simp only [← h.nextPoolRow_iff, hpool, true_and]
  cases scan.nextPoolRow (a.appCode index) <;> simp

/-- A row that is visited last is the next pool row of its app, if it is in the pool at all. -/
theorem PoolScanned.next_step {scan : PoolScan} (hindex : index < a.len)
    (h : PoolScanned a (index + 1) scan) (code : Int) (next : Nat) :
    (poolStep a index scan).nextPoolRow code = some next ↔
      (index ≤ next ∧ next < a.len ∧ a.inPool next = true ∧ a.appCode next = code) ∧
        ∀ between, index ≤ between → between < next → a.inPool between = true →
          a.appCode between ≠ code := by
  by_cases hown : a.inPool index = true ∧ code = a.appCode index
  · obtain ⟨hpool, rfl⟩ := hown
    have hstep : (poolStep a index scan).nextPoolRow (a.appCode index) = some index := by
      simp [poolStep, hpool]
    rw [hstep, Option.some.injEq]
    constructor
    · rintro rfl
      exact ⟨⟨le_rfl, hindex, hpool, rfl⟩, fun between hle hlt => by omega⟩
    · rintro ⟨⟨hle, -⟩, hbetween⟩
      by_contra hne
      exact hbetween index le_rfl (by omega) hpool rfl
  · have hstep : (poolStep a index scan).nextPoolRow code = scan.nextPoolRow code := by
      unfold poolStep
      split
      · case isTrue hpool => exact if_neg fun hcode => hown ⟨hpool, hcode⟩
      · rfl
    have hself : ∀ other, index ≤ other → a.inPool other = true → a.appCode other = code →
        index + 1 ≤ other := by
      intro other hle hpool hcode
      by_contra hlt
      obtain rfl : other = index := by omega
      exact hown ⟨hpool, hcode.symm⟩
    rw [hstep, h.next]
    constructor
    · rintro ⟨⟨hle, hrest⟩, hbetween⟩
      exact ⟨⟨by omega, hrest⟩, fun between hge hlt hpool hcode =>
        hbetween between (hself between hge hpool hcode) hlt hpool hcode⟩
    · rintro ⟨⟨hle, hlen, hpool, hcode⟩, hbetween⟩
      exact ⟨⟨hself next hle hpool hcode, hlen, hpool, hcode⟩, fun between hge =>
        hbetween between (by omega)⟩

theorem poolScanned_step {scan : PoolScan} (hindex : index < a.len)
    (h : PoolScanned a (index + 1) scan) : PoolScanned a index (poolStep a index scan) where
  size := by
    unfold poolStep
    split
    · rw [Array.size_setIfInBounds, h.size]
    · exact h.size
  next := h.next_step hindex
  candidates := fun i => by
    have hlater := h.candidates i
    have hbounds : index < scan.isStopCandidate.size := h.size ▸ hindex
    rw [Array.getD_eq_getD_getElem?] at hlater ⊢
    unfold poolStep
    split
    · case isTrue hpool =>
        dsimp only
        rw [Array.getElem?_setIfInBounds]
        rcases eq_or_ne index i with rfl | hne
        · rw [if_pos rfl, if_pos hbounds, Option.getD_some, h.endsRun_iff hpool]
          exact ⟨fun hends => ⟨le_rfl, hindex, hends⟩, fun hends => hends.2.2⟩
        · rw [if_neg hne, hlater]
          exact and_congr_left fun _ => by omega
    · case isFalse hpool =>
        rw [hlater]
        refine ⟨fun hends => ⟨by omega, hends.2⟩, fun hends => ⟨?_, hends.2⟩⟩
        have hne : index ≠ i := by
          rintro rfl
          exact hpool hends.2.2.1
        omega

theorem isStopCandidate_iff (i : Nat) :
    (isStopCandidate a).getD i false = true ↔ i < a.len ∧ a.EndsRun i := by
  have hscanned := foldr_range_induction (P := PoolScanned a) poolScanned_start
    fun index scan hindex h => poolScanned_step hindex h
  rw [isStopCandidate, hscanned.candidates]
  simp

/-- The search from the row behind the opener finds the opener's candidate. -/
theorem stopCandidateAfter_iff (stop : Nat) :
    stopCandidateAfter a index = some stop ↔ a.Candidate index stop := by
  rw [stopCandidateAfter, List.find?_range'_eq_some]
  simp only [Bool.and_eq_true, beq_iff_eq, isStopCandidate_iff, List.mem_range'_1,
    Bool.not_eq_true', Bool.and_eq_false_iff]
  unfold GesisArrays.Candidate
  constructor
  · rintro ⟨⟨⟨hlen, hends⟩, hcode⟩, hrange, hearlier⟩
    refine ⟨⟨by omega, hlen, hcode, hends⟩, fun earlier hlt hbefore hsame hruns => ?_⟩
    rcases hearlier earlier (by omega) hbefore with hnot | hother
    · rw [← Bool.not_eq_true, isStopCandidate_iff] at hnot
      exact hnot ⟨by omega, hruns⟩
    · simp [hsame] at hother
  · rintro ⟨⟨hlt, hlen, hcode, hends⟩, hearlier⟩
    refine ⟨⟨⟨hlen, hends⟩, hcode⟩, by omega, fun earlier hge hbefore => ?_⟩
    by_cases hsame : a.appCode earlier = a.appCode index
    · left
      rw [← Bool.not_eq_true, isStopCandidate_iff]
      exact fun hruns => hearlier earlier (by omega) hbefore hsame hruns.2
    · exact .inr (by simpa using hsame)

end Candidates

/-! ## The closes -/

section Closes

variable {a : GesisArrays} {elapsed : Int → Int} {maxTimeoutNs : Int} {eventThreshold index : Nat}
  {out : MatchUpdateIndices}

theorem nextGlobalWithinTimeout_iff :
    nextGlobalWithinTimeout a maxTimeoutNs index = true ↔
      a.WithinTimeout saturate64 maxTimeoutNs index := by
  simp [nextGlobalWithinTimeout, GesisArrays.WithinTimeout]

/-- Without a candidate that is near enough, the next row or the clock closes the episode. -/
theorem gesisCloses_fallback
    (hfar : ∀ stop, ¬ a.ClosesOriginally eventThreshold index stop) {close}
    (hclose : close = if nextGlobalWithinTimeout a maxTimeoutNs index then
        (index + 1, none, EpisodeCloseReason.gesisNextGlobalEvent)
      else (index, some (saturate64 (a.timestamp index + maxTimeoutNs)), .gesisTimeout)) :
    GesisCloses a saturate64 maxTimeoutNs eventThreshold index close.1 close.2.1 close.2.2 := by
  subst hclose
  split
  · case isTrue hwithin => exact .nextGlobal hfar (nextGlobalWithinTimeout_iff.mp hwithin)
  · case isFalse hlate => exact .timeout hfar fun h => hlate (nextGlobalWithinTimeout_iff.mpr h)

theorem gesisCloses_gesisClose :
    GesisCloses a saturate64 maxTimeoutNs eventThreshold index
      (gesisClose a maxTimeoutNs eventThreshold index).1
      (gesisClose a maxTimeoutNs eventThreshold index).2.1
      (gesisClose a maxTimeoutNs eventThreshold index).2.2 := by
  cases hcandidate : stopCandidateAfter a index with
  | none =>
      refine gesisCloses_fallback (fun stop h => ?_) (by simp [gesisClose, hcandidate])
      rw [(stopCandidateAfter_iff stop).mpr h.1] at hcandidate
      exact absurd hcandidate (by simp)
  | some stop =>
      by_cases hnear : stop - index - 1 ≤ eventThreshold
      · have hclose : gesisClose a maxTimeoutNs eventThreshold index =
            (stop, none, .gesisOriginalStop) := by
          simp [gesisClose, hcandidate, hnear]
        rw [hclose]
        exact .original stop ⟨(stopCandidateAfter_iff stop).mp hcandidate, hnear⟩
      · refine gesisCloses_fallback (fun other h => ?_) (by simp [gesisClose, hcandidate, hnear])
        rw [(stopCandidateAfter_iff other).mpr h.1, Option.some.injEq] at hcandidate
        exact hnear (hcandidate ▸ h.2)

/-- Measured exactly, the elapsed time is compared with a timeout below the largest value as the
saturated difference is. -/
theorem GesisCloses.exact (hfits : Fits64 maxTimeoutNs) (hlarge : maxTimeoutNs < i64Max)
    {stop : Nat} {time : Option Int} {reason : EpisodeCloseReason}
    (h : GesisCloses a saturate64 maxTimeoutNs eventThreshold index stop time reason) :
    GesisCloses a id maxTimeoutNs eventThreshold index stop time reason := by
  have hmeasure : ∀ x, saturate64 x ≤ maxTimeoutNs ↔ id x ≤ maxTimeoutNs := by
    intro x
    have hlow := hfits.1
    unfold saturate64
    rw [id_eq]
    omega
  cases h with
  | original stop h => exact .original stop h
  | nextGlobal hfar hwithin =>
      exact .nextGlobal hfar ⟨hwithin.1, (hmeasure _).mp hwithin.2⟩
  | timeout hfar hlate =>
      exact .timeout hfar fun h => hlate ⟨h.1, (hmeasure _).mpr h.2⟩

/-- The result for a list of openers. -/
def gesisOutput (a : GesisArrays) (maxTimeoutNs : Int) (eventThreshold : Nat)
    (openers : List Nat) : MatchUpdateIndices where
  startIndices := openers
  stopStartIndices := openers
  stopEventIndices := openers.map fun index => (gesisClose a maxTimeoutNs eventThreshold index).1
  missingIndices := []
  stopReasons := openers.map fun index => (gesisClose a maxTimeoutNs eventThreshold index).2.2
  missingReasons := []
  stopTimestampsNs := openers.map fun index =>
    (gesisClose a maxTimeoutNs eventThreshold index).2.1

theorem gesisStep_gesisOutput (openers : List Nat) :
    gesisStep a maxTimeoutNs eventThreshold (gesisOutput a maxTimeoutNs eventThreshold openers)
        index =
      gesisOutput a maxTimeoutNs eventThreshold
        (openers ++ if a.opens index then [index] else []) := by
  unfold gesisStep gesisOutput
  split <;> simp

/-- After the first rows the output lists the closes of the openers among them. -/
theorem foldl_gesisStep (n : Nat) :
    (List.range n).foldl (gesisStep a maxTimeoutNs eventThreshold)
        (gesisOutput a maxTimeoutNs eventThreshold []) =
      gesisOutput a maxTimeoutNs eventThreshold ((List.range n).filter a.opens) := by
  induction n with
  | zero => rfl
  | succ n ih =>
      rw [List.range_succ, List.foldl_append, List.foldl_cons, List.foldl_nil, ih,
        gesisStep_gesisOutput, List.filter_append]
      cases hopens : a.opens n <;> simp [hopens]

theorem match_gesis_eq_ok_iff :
    matchAppUsageGesisWithOpenersIndicesCore a maxTimeoutNs eventThreshold = .ok out ↔
      a.SameLengths ∧
        out = gesisOutput a maxTimeoutNs eventThreshold ((List.range a.len).filter a.opens) := by
  unfold matchAppUsageGesisWithOpenersIndicesCore
  split
  · case isTrue hlengths =>
      rw [Except.ok.injEq, and_iff_right hlengths]
      exact ⟨fun h => h.symm.trans (foldl_gesisStep a.len),
        fun h => (foldl_gesisStep a.len).trans h.symm⟩
  · case isFalse hlengths => simp [hlengths]

/-- In an accepted call every opener is closed once and none is reported missing; its close is the
one the rule gives, with the elapsed time measured by a saturating subtraction, which is exact
unless the timeout is the largest value. -/
theorem gesis_closes_every_opener
    (h : matchAppUsageGesisWithOpenersIndicesCore a maxTimeoutNs eventThreshold = .ok out) :
    out.startIndices = (List.range a.len).filter a.opens ∧
      out.stopStartIndices = out.startIndices ∧ out.missingIndices = [] ∧
      out.missingReasons = [] ∧ out.stopEventIndices.length = out.startIndices.length ∧
      out.stopReasons.length = out.startIndices.length ∧
      out.stopTimestampsNs.length = out.startIndices.length ∧
      ∀ place opener, out.startIndices[place]? = some opener →
        ClosedByRule a saturate64 maxTimeoutNs eventThreshold out place opener ∧
        (Fits64 maxTimeoutNs → maxTimeoutNs < i64Max →
          ClosedByRule a id maxTimeoutNs eventThreshold out place opener) := by
  obtain ⟨-, rfl⟩ := match_gesis_eq_ok_iff.mp h
  refine ⟨rfl, rfl, rfl, rfl, by simp [gesisOutput], by simp [gesisOutput], by simp [gesisOutput],
    fun place opener hopener => ?_⟩
  have hclose : GesisCloses a saturate64 maxTimeoutNs eventThreshold opener _ _ _ :=
    gesisCloses_gesisClose
  have hmap : ∀ {β : Type} (f : Nat → β),
      (((List.range a.len).filter a.opens).map f)[place]? = some (f opener) := by
    intro β f
    rw [List.getElem?_map]
    exact congrArg (Option.map f) hopener
  exact ⟨⟨_, _, _, hmap _, hmap _, hmap _, hclose⟩, fun hfits hlarge =>
    ⟨_, _, _, hmap _, hmap _, hmap _, hclose.exact hfits hlarge⟩⟩

/-- An app that opens twice and never stops, with another app's row in between: the first opener is
closed by the second, the second one by the clock. -/
def reopened : GesisArrays :=
  ⟨#[1, 2, 1], #[0, 5, 20], #[true, false, true], #[true, false, true], #[false, false, false],
    #[true, true, true], #[false, false, false]⟩

theorem gesis_closes_every_opener_reopened :
    ∃ out, matchAppUsageGesisWithOpenersIndicesCore reopened 600 10 = .ok out ∧
      out.stopTimestampsNs = [none, some 620] ∧ out.startIndices = [0, 2] ∧
      out.missingIndices = [] := by
  have hmatch : matchAppUsageGesisWithOpenersIndicesCore reopened 600 10 =
      .ok (gesisOutput reopened 600 10 [0, 2]) := by
    decide +kernel
  refine ⟨_, hmatch, by decide +kernel, ?_⟩
  obtain ⟨hstarts, -, hmissing, -⟩ := gesis_closes_every_opener hmatch
  exact ⟨hstarts.trans (by decide +kernel), hmissing⟩

/-- A row further behind an opener than any representable difference. -/
def farApart : GesisArrays :=
  ⟨#[1, 2], #[-1, i64Max], #[true, false], #[true, false], #[false, false], #[true, true],
    #[false, false]⟩

/-- With the largest timeout, a difference that saturates is taken to be within it. -/
theorem gesis_saturates_at_largest_timeout :
    ¬ ∀ (a : GesisArrays) (maxTimeoutNs : Int) (eventThreshold : Nat) (out : MatchUpdateIndices),
      Fits64 maxTimeoutNs → (∀ t ∈ a.timestampNs, Fits64 t) →
      matchAppUsageGesisWithOpenersIndicesCore a maxTimeoutNs eventThreshold = .ok out →
      ∀ place opener, out.startIndices[place]? = some opener →
        ClosedByRule a id maxTimeoutNs eventThreshold out place opener := by
  intro h
  have hmatch : matchAppUsageGesisWithOpenersIndicesCore farApart i64Max 0 =
      .ok (gesisOutput farApart i64Max 0 [0]) := by
    decide +kernel
  obtain ⟨stop, time, reason, -, -, hreason, hcloses⟩ :=
    h farApart i64Max 0 _ (by decide) (by decide) hmatch 0 0 rfl
  have hnext : (gesisOutput farApart i64Max 0 [0]).stopReasons = [.gesisNextGlobalEvent] := by
    decide +kernel
  rw [hnext] at hreason
  obtain rfl : EpisodeCloseReason.gesisNextGlobalEvent = reason := by simpa using hreason
  cases hcloses with
  | nextGlobal hfar hwithin =>
      exact absurd hwithin.2 (by decide)

end Closes

end Chronicle.Matcher
