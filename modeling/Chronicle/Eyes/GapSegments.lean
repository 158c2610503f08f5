import Chronicle.Eyes.BlockShape

/-!
# The gap segments

A pass of the detection adds at most one segment: a silence, the time after a shutdown, or the time
before a startup. Segments stay in order, and every silence is inside one unless the instants are so
far apart that their difference wraps.
-/

namespace Chronicle.Eyes

open Chronicle.Library Chronicle.Library.Machine

/-- The silence threshold in nanoseconds. -/
def EyesOptions.silenceNs (options : EyesOptions) : Int :=
  secondsToNs (options.gapSilenceHours.mulConst 3600)

/-- The reboot-neighbour threshold in nanoseconds. -/
def EyesOptions.neighbourNs (options : EyesOptions) : Int :=
  secondsToNs options.gapRebootNeighborSeconds

/-! ## One pass -/

/-- The loop state of `detect_gap_segments`. -/
structure GapCursor where
  index : Nat
  previous : Option Int
  segments : List (Int × Int)

/-- What a pass of the loop can do. -/
inductive GapPass (events : List (EyesEvent × EyesSignal)) (silenceNs neighbourNs : Int) :
    GapCursor → GapCursor → Prop where
  | quiet {index previous segments} (hinside : index < events.length)
      (hshort : ∀ p ∈ previous, wrap64 (instantAt events index - p) < silenceNs) :
      GapPass events silenceNs neighbourNs ⟨index, previous, segments⟩
        ⟨index + 1, some (instantAt events index), segments⟩
  | silence {index p segments} (hinside : index < events.length)
      (hlong : silenceNs ≤ wrap64 (instantAt events index - p)) :
      GapPass events silenceNs neighbourNs ⟨index, some p, segments⟩
        ⟨index + 1, some (instantAt events index),
          pushGapSegment segments p (instantAt events index)⟩
  | shutdown {index p far segments} (hshort : wrap64 (instantAt events index - p) < silenceNs)
      (hlt : index < far) (hinside : far < events.length)
      (hlong : neighbourNs ≤ wrap64 (instantAt events far - instantAt events index))
      (hfirst : ∀ k, index ≤ k → k < far →
        wrap64 (instantAt events k - instantAt events index) < neighbourNs) :
      GapPass events silenceNs neighbourNs ⟨index, some p, segments⟩
        ⟨far, some (instantAt events index),
          pushGapSegment segments (instantAt events index) (instantAt events far)⟩
  | startup {index p far segments} (hshort : wrap64 (instantAt events index - p) < silenceNs)
      (hlt : far < index) (hinside : index < events.length)
      (hlong : neighbourNs ≤ wrap64 (instantAt events index - instantAt events far)) :
      GapPass events silenceNs neighbourNs ⟨index, some p, segments⟩
        ⟨index + 1, some (instantAt events index),
          pushGapSegment segments (instantAt events far) (instantAt events index)⟩

variable {events : List (EyesEvent × EyesSignal)} {silenceNs neighbourNs : Int}

theorem instantAt_of_getElem? {index : Nat} {entry : EyesEvent × EyesSignal}
    (h : events[index]? = some entry) : instantAt events index = entry.1.timestampNs := by
  rw [instantAt, h]
  rfl

/-- The event after a shutdown is the first one that is far enough. -/
theorem farAfter_first {timestamp : Int} {index far : Nat}
    (h : farAfter events neighbourNs index timestamp = some far) {k : Nat} (hk : index ≤ k)
    (hfar : k < far) : wrap64 (instantAt events k - timestamp) < neighbourNs := by
  obtain ⟨hmap, -⟩ := Option.filter_eq_some_iff.mp h
  obtain ⟨offset, hfind, rfl⟩ := Option.map_eq_some_iff.mp hmap
  obtain ⟨hoffset, -, hbefore⟩ := List.findIdx?_eq_some_iff_getElem.mp hfind
  rw [List.length_drop] at hoffset
  have hnear := hbefore (k - index) (by omega)
  rw [List.getElem_drop] at hnear
  have hplace : events[k]? = some events[index + (k - index)] := by
    rw [List.getElem?_eq_getElem (by omega)]
    congr 2
    omega
  rw [instantAt_of_getElem? hplace]
  simpa using hnear

/-- The body of the loop, at an event of the given signal. -/
def gapNext (events : List (EyesEvent × EyesSignal)) (silenceNs neighbourNs : Int)
    (start : GapCursor) (signal : EyesSignal) : GapCursor :=
  let timestamp := instantAt events start.index
  let next := GapCursor.mk (start.index + 1) (some timestamp)
  match start.previous with
  | none => next start.segments
  | some p =>
      if wrap64 (timestamp - p) ≥ silenceNs then next (pushGapSegment start.segments p timestamp)
      else if signal.isShutdownClassReboot then
        match farAfter events neighbourNs start.index timestamp with
        | some far =>
            ⟨far, some timestamp, pushGapSegment start.segments timestamp (instantAt events far)⟩
        | none => next start.segments
      else if signal.isStartupClassReboot then
        match farBefore events neighbourNs start.index timestamp with
        | some far => next (pushGapSegment start.segments (instantAt events far) timestamp)
        | none => next start.segments
      else next start.segments

theorem gapLoop_succ {start : GapCursor} {entry : EyesEvent × EyesSignal}
    (h : events[start.index]? = some entry) (fuel : Nat) :
    gapLoop events silenceNs neighbourNs (fuel + 1) start.index start.previous start.segments =
      gapLoop events silenceNs neighbourNs fuel
        (gapNext events silenceNs neighbourNs start entry.2).index
        (gapNext events silenceNs neighbourNs start entry.2).previous
        (gapNext events silenceNs neighbourNs start entry.2).segments := by
  obtain ⟨event, signal⟩ := entry
  have hinstant : instantAt events start.index = event.timestampNs := instantAt_of_getElem? h
  rw [gapLoop, h]
  simp only [gapNext, ← hinstant]
  cases start.previous with
  | none => rfl
  | some p =>
      simp only
      split
      · rfl
      · split
        · cases farAfter events neighbourNs start.index (instantAt events start.index) <;> rfl
        · split
          · cases farBefore events neighbourNs start.index (instantAt events start.index) <;> rfl
          · rfl

/-- The body of the loop is one of the four passes. -/
theorem gapPass_gapNext {start : GapCursor} (silenceNs neighbourNs : Int)
    (h : start.index < events.length) (signal : EyesSignal) :
    GapPass events silenceNs neighbourNs start
      (gapNext events silenceNs neighbourNs start signal) := by
  obtain ⟨index, previous, segments⟩ := start
  unfold gapNext
  cases previous with
  | none => exact .quiet h (by simp)
  | some p =>
      simp only
      split
      · rename_i hlong
        exact .silence h hlong
      · rename_i hshort
        have hquiet : wrap64 (instantAt events index - p) < silenceNs := not_le.mp hshort
        have hnone : ∀ q ∈ some p, wrap64 (instantAt events index - q) < silenceNs := by
          simpa using hquiet
        split
        · split
          · rename_i far hfar
            obtain ⟨hlt, far', hfar', hlong⟩ := farAfter_eq_some hfar
            rw [← instantAt_of_getElem? hfar'] at hlong
            exact .shutdown hquiet hlt (List.getElem?_eq_some_iff.mp hfar').1 hlong
              fun k hk hkfar => farAfter_first hfar hk hkfar
          · exact .quiet h hnone
        · split
          · split
            · rename_i far hfar
              obtain ⟨hlt, far', hfar', hlong⟩ := farBefore_eq_some h hfar
              rw [← instantAt_of_getElem? hfar'] at hlong
              exact .startup hquiet hlt h hlong
            · exact .quiet h hnone
          · exact .quiet h hnone

theorem GapPass.index_lt {before after : GapCursor}
    (h : GapPass events silenceNs neighbourNs before after) : before.index < after.index := by
  cases h with
  | quiet | silence | startup => exact Nat.lt_succ_self _
  | shutdown hshort hlt => exact hlt

/-- The loop runs until no event is left, and keeps what every pass keeps. -/
theorem gapLoop_run {I : GapCursor → Prop}
    (hpass : ∀ before after, GapPass events silenceNs neighbourNs before after →
      I before → I after) {fuel : Nat} {start : GapCursor} (h : I start)
    (hfuel : events.length ≤ start.index + fuel) :
    ∃ last, I last ∧ events.length ≤ last.index ∧
      gapLoop events silenceNs neighbourNs fuel start.index start.previous start.segments =
        last.segments := by
  induction fuel generalizing start with
  | zero => exact ⟨start, h, hfuel, rfl⟩
  | succ fuel ih =>
      by_cases hinside : start.index < events.length
      · have hnext := gapPass_gapNext silenceNs neighbourNs hinside events[start.index].2
        have hforward := hnext.index_lt
        rw [gapLoop_succ (List.getElem?_eq_getElem hinside)]
        exact ih (hpass _ _ hnext h) (by omega)
      · refine ⟨start, h, by omega, ?_⟩
        rw [gapLoop, List.getElem?_eq_none (by omega)]

/-- More passes than there are events change nothing. -/
theorem gapLoop_add_fuel {fuel : Nat} (start : GapCursor)
    (hfuel : events.length ≤ start.index + fuel) (more : Nat) :
    gapLoop events silenceNs neighbourNs (fuel + more) start.index start.previous start.segments =
      gapLoop events silenceNs neighbourNs fuel start.index start.previous start.segments := by
  induction fuel generalizing start with
  | zero =>
      cases more with
      | zero => rfl
      | succ more => rw [Nat.zero_add, gapLoop, gapLoop, List.getElem?_eq_none (by omega)]
  | succ fuel ih =>
      by_cases hinside : start.index < events.length
      · have hnext := gapPass_gapNext silenceNs neighbourNs hinside events[start.index].2
        have hforward := hnext.index_lt
        rw [Nat.succ_add, gapLoop_succ (List.getElem?_eq_getElem hinside),
          gapLoop_succ (List.getElem?_eq_getElem hinside)]
        exact ih _ (by omega)
      · rw [Nat.succ_add, gapLoop, gapLoop, List.getElem?_eq_none (by omega)]

/-! ## One more segment -/

/-- The segments run forward, one after the other. -/
structure OrderedSegments (segments : List (Int × Int)) : Prop where
  forward : ∀ segment ∈ segments, segment.1 < segment.2
  apart : segments.Pairwise fun a b => a.2 ≤ b.1

/-- One segment holds the whole span. -/
def Spanned (segments : List (Int × Int)) (start stop : Int) : Prop :=
  ∃ segment ∈ segments, segment.1 ≤ start ∧ stop ≤ segment.2

variable {segments : List (Int × Int)} {start stop : Int}

/-- A segment is dropped, joins the last one, or becomes the last one. -/
theorem pushGapSegment_cases (segments : List (Int × Int)) (start stop : Int) :
    (stop ≤ start ∧ pushGapSegment segments start stop = segments) ∨
      (∃ front last, segments = front ++ [last] ∧ start < last.2 ∧
        pushGapSegment segments start stop = front ++ [(last.1, max last.2 stop)]) ∨
      (start < stop ∧ (∀ last ∈ segments.getLast?, last.2 ≤ start) ∧
        pushGapSegment segments start stop = segments ++ [(start, stop)]) := by
  unfold pushGapSegment
  split
  · rename_i hempty
    exact Or.inl ⟨hempty, rfl⟩
  · rename_i hforward
    cases hlast : segments.getLast? with
    | none => exact Or.inr (Or.inr ⟨not_le.mp hforward, by simp, rfl⟩)
    | some last =>
        obtain ⟨front, rfl⟩ := List.getLast?_eq_some_iff.mp hlast
        simp only
        split
        · rename_i hinside
          refine Or.inr (Or.inl ⟨front, last, rfl, hinside, ?_⟩)
          split
          · rename_i hlonger
            rw [List.dropLast_concat, max_eq_right hlonger.le]
          · rename_i hshorter
            rw [max_eq_left (not_lt.mp hshorter)]
        · rename_i hafter
          exact Or.inr (Or.inr ⟨not_le.mp hforward, by simpa using hafter, rfl⟩)

/-- What holds of the starts and of the stops holds of them after one more segment. -/
theorem forall_pushGapSegment {P Q : Int → Prop}
    (h : ∀ segment ∈ segments, P segment.1 ∧ Q segment.2) (hstart : P start) (hstop : Q stop) :
    ∀ segment ∈ pushGapSegment segments start stop, P segment.1 ∧ Q segment.2 := by
  rcases pushGapSegment_cases segments start stop with
    ⟨-, heq⟩ | ⟨front, last, rfl, -, heq⟩ | ⟨-, -, heq⟩
  · rw [heq]
    exact h
  · rw [heq]
    intro segment hsegment
    rcases List.mem_append.mp hsegment with hfront | hlast
    · exact h segment (List.mem_append_left _ hfront)
    · have hold := h last (List.mem_append_right _ List.mem_cons_self)
      rw [List.mem_singleton.mp hlast]
      refine ⟨hold.1, ?_⟩
      rcases le_total last.2 stop with hle | hle
      · rw [max_eq_right hle]
        exact hstop
      · rw [max_eq_left hle]
        exact hold.2
  · rw [heq]
    intro segment hsegment
    rcases List.mem_append.mp hsegment with hold | hnew
    · exact h segment hold
    · rw [List.mem_singleton.mp hnew]
      exact ⟨hstart, hstop⟩

theorem OrderedSegments.push (h : OrderedSegments segments) (start stop : Int) :
    OrderedSegments (pushGapSegment segments start stop) := by
  rcases pushGapSegment_cases segments start stop with
    ⟨-, heq⟩ | ⟨front, last, rfl, -, heq⟩ | ⟨hforward, hlast, heq⟩
  · rw [heq]
    exact h
  · have hfront := List.pairwise_append.mp h.apart
    have hgrown := h.forward last (List.mem_append_right _ List.mem_cons_self)
    rw [heq]
    refine ⟨fun segment hsegment => ?_, List.pairwise_append.mpr ⟨hfront.1,
      List.pairwise_singleton _ _, fun a ha b hb => ?_⟩⟩
    · rcases List.mem_append.mp hsegment with hold | hnew
      · exact h.forward segment (List.mem_append_left _ hold)
      · rw [List.mem_singleton.mp hnew]
        exact hgrown.trans_le (le_max_left _ _)
    · rw [List.mem_singleton.mp hb]
      exact hfront.2.2 a ha last List.mem_cons_self
  · rw [heq]
    refine ⟨fun segment hsegment => ?_, List.pairwise_append.mpr ⟨h.apart,
      List.pairwise_singleton _ _, fun a ha b hb => ?_⟩⟩
    · rcases List.mem_append.mp hsegment with hold | hnew
      · exact h.forward segment hold
      · rw [List.mem_singleton.mp hnew]
        exact hforward
    · -- the last segment ends before the new one starts, and the others end before the last
      rw [List.mem_singleton.mp hb]
      obtain ⟨front, last, rfl⟩ := List.eq_nil_or_concat' segments |>.resolve_left
        (List.ne_nil_of_mem ha)
      have hend : last.2 ≤ start := hlast last (by simp)
      rcases List.mem_append.mp ha with hfront | hsame
      · have hbefore := (List.pairwise_append.mp h.apart).2.2 a hfront last List.mem_cons_self
        have hgrown := h.forward last (List.mem_append_right _ List.mem_cons_self)
        show a.2 ≤ start
        omega
      · rw [List.mem_singleton.mp hsame]
        exact hend

/-- A span that one segment holds stays in one. -/
theorem Spanned.push {a b : Int} (h : Spanned segments a b) (start stop : Int) :
    Spanned (pushGapSegment segments start stop) a b := by
  obtain ⟨segment, hsegment, hstart, hstop⟩ := h
  rcases pushGapSegment_cases segments start stop with
    ⟨-, heq⟩ | ⟨front, last, rfl, -, heq⟩ | ⟨-, -, heq⟩
  · rw [heq]
    exact ⟨segment, hsegment, hstart, hstop⟩
  · rw [heq]
    rcases List.mem_append.mp hsegment with hfront | hlast
    · exact ⟨segment, List.mem_append_left _ hfront, hstart, hstop⟩
    · rw [List.mem_singleton.mp hlast] at hstart hstop
      exact ⟨_, List.mem_append_right _ List.mem_cons_self, hstart, hstop.trans (le_max_left _ _)⟩
  · exact ⟨segment, heq ▸ List.mem_append_left _ hsegment, hstart, hstop⟩

/-- The new segment is held by one, if none starts after it. -/
theorem spanned_pushGapSegment (hforward : start < stop)
    (hearly : ∀ segment ∈ segments, segment.1 ≤ start) :
    Spanned (pushGapSegment segments start stop) start stop := by
  rcases pushGapSegment_cases segments start stop with
    ⟨hempty, -⟩ | ⟨front, last, rfl, -, heq⟩ | ⟨-, -, heq⟩
  · exact absurd hempty (not_le.mpr hforward)
  · rw [heq]
    exact ⟨_, List.mem_append_right _ List.mem_cons_self,
      hearly last (List.mem_append_right _ List.mem_cons_self), le_max_right _ _⟩
  · rw [heq]
    exact ⟨_, List.mem_append_right _ List.mem_cons_self, le_rfl, le_rfl⟩

/-- Segments that keep clear of a span still do after one that does. -/
theorem apart_pushGapSegment {a b : Int} (hab : a < b)
    (h : ∀ segment ∈ segments, segment.2 ≤ a ∨ b ≤ segment.1) (hnew : stop ≤ a ∨ b ≤ start) :
    ∀ segment ∈ pushGapSegment segments start stop, segment.2 ≤ a ∨ b ≤ segment.1 := by
  rcases pushGapSegment_cases segments start stop with
    ⟨-, heq⟩ | ⟨front, last, rfl, hinside, heq⟩ | ⟨-, -, heq⟩
  · rw [heq]
    exact h
  · rw [heq]
    intro segment hsegment
    rcases List.mem_append.mp hsegment with hfront | hlast
    · exact h segment (List.mem_append_left _ hfront)
    · have hold := h last (List.mem_append_right _ List.mem_cons_self)
      rw [List.mem_singleton.mp hlast]
      simp only [max_le_iff]
      omega
  · rw [heq]
    intro segment hsegment
    rcases List.mem_append.mp hsegment with hold | hlast
    · exact h segment hold
    · rw [List.mem_singleton.mp hlast]
      exact hnew

/-! ## All passes -/

/-- The events are in order of time, at 64-bit instants. -/
structure TimeSorted (events : List (EyesEvent × EyesSignal)) : Prop where
  ordered : events.Pairwise fun a b => a.1.timestampNs ≤ b.1.timestampNs
  fits : ∀ entry ∈ events, Fits64 entry.1.timestampNs

/-- The instant is that of an event. -/
def EventInstant (events : List (EyesEvent × EyesSignal)) (instant : Int) : Prop :=
  ∃ entry ∈ events, instant = entry.1.timestampNs

theorem eventInstant_instantAt {index : Nat} (h : index < events.length) :
    EventInstant events (instantAt events index) :=
  ⟨_, List.getElem_mem h, instantAt_of_getElem? (List.getElem?_eq_getElem h)⟩

theorem TimeSorted.le (h : TimeSorted events) {i j : Nat} (hij : i ≤ j) (hj : j < events.length) :
    instantAt events i ≤ instantAt events j := by
  rcases Nat.eq_or_lt_of_le hij with rfl | hlt
  · exact le_rfl
  · rw [instantAt_of_getElem? (List.getElem?_eq_getElem (hlt.trans hj)),
      instantAt_of_getElem? (List.getElem?_eq_getElem hj)]
    exact List.pairwise_iff_getElem.mp h.ordered i j _ hj hlt

theorem TimeSorted.instantAt_fits (h : TimeSorted events) {i : Nat} (hi : i < events.length) :
    Fits64 (instantAt events i) := by
  obtain ⟨entry, hmem, heq⟩ := eventInstant_instantAt hi
  exact heq ▸ h.fits entry hmem

/-- A difference that is not negative and not too large is exact. -/
theorem wrap64_of_le {d : Int} (hnonneg : 0 ≤ d) (hle : d ≤ i64Max) : wrap64 d = d :=
  wrap64_of_fits ⟨by unfold i64Min; omega, hle⟩

/-- A difference of instants that is too large becomes negative. -/
theorem TimeSorted.wrap64_neg (h : TimeSorted events) {i j : Nat} (hi : i < events.length)
    (hj : j < events.length) (hlarge : i64Max < instantAt events j - instantAt events i) :
    wrap64 (instantAt events j - instantAt events i) < 0 := by
  have hfits := h.instantAt_fits hi
  have hfits' := h.instantAt_fits hj
  rw [fits64_iff] at hfits hfits'
  unfold i64Max at hlarge
  unfold wrap64
  omega

/-- What holds of the segments before a pass, besides what it covers. -/
structure GapShape (events : List (EyesEvent × EyesSignal)) (cursor : GapCursor) : Prop where
  ordered : OrderedSegments cursor.segments
  endpoints : ∀ segment ∈ cursor.segments,
    EventInstant events segment.1 ∧ EventInstant events segment.2
  previous : ∀ p ∈ cursor.previous, ∃ k, k < events.length ∧ p = instantAt events k

theorem GapShape.push {cursor : GapCursor} (h : GapShape events cursor) {index i j k : Nat}
    (hi : i < events.length) (hj : j < events.length) (hprevious : k < events.length) :
    GapShape events ⟨index, some (instantAt events k),
      pushGapSegment cursor.segments (instantAt events i) (instantAt events j)⟩ where
  ordered := h.ordered.push _ _
  endpoints := forall_pushGapSegment (P := EventInstant events) (Q := EventInstant events)
    h.endpoints (eventInstant_instantAt hi) (eventInstant_instantAt hj)
  previous _ hp := ⟨k, hprevious, (Option.some.inj hp).symm⟩

theorem GapShape.pass {before after : GapCursor} (h : GapShape events before)
    (hpass : GapPass events silenceNs neighbourNs before after) : GapShape events after := by
  cases hpass with
  | quiet hinside hshort =>
      exact ⟨h.ordered, h.endpoints, fun p hp => ⟨_, hinside, (Option.some.inj hp).symm⟩⟩
  | silence hinside hlong =>
      obtain ⟨k, hk, hp⟩ := h.previous _ rfl
      subst hp
      exact h.push hk hinside hinside
  | shutdown hshort hlt hinside hlong hfirst =>
      exact h.push (hlt.trans hinside) hinside (hlt.trans hinside)
  | startup hshort hlt hinside hlong => exact h.push (hlt.trans hinside) hinside hinside

/-- The silences before the cursor are covered. -/
structure GapCoverage (events : List (EyesEvent × EyesSignal)) (silenceNs : Int)
    (cursor : GapCursor) : Prop where
  start : cursor.previous = none → cursor.index = 0 ∧ cursor.segments = []
  early : ∀ p ∈ cursor.previous, (∀ segment ∈ cursor.segments, segment.1 ≤ p) ∧
    ∃ k, k < cursor.index ∧ k < events.length ∧ p = instantAt events k
  last : ∀ p ∈ cursor.previous, p = instantAt events (cursor.index - 1) ∨
    Spanned cursor.segments (instantAt events (cursor.index - 1)) (instantAt events cursor.index)
  covered : ∀ i, i + 1 < cursor.index → silenceNs ≤ instantAt events (i + 1) - instantAt events i →
    Spanned cursor.segments (instantAt events i) (instantAt events (i + 1))

/-- The pair before the cursor is covered too, if it is not a silence seen by this pass. -/
theorem GapCoverage.at_cursor {index : Nat} {p : Int} {segments : List (Int × Int)}
    (h : GapCoverage events silenceNs ⟨index, some p, segments⟩) (hsorted : TimeSorted events)
    (hnear : ∀ i, i + 1 < events.length →
      instantAt events (i + 1) - instantAt events i ≤ i64Max)
    (hinside : index < events.length) (hshort : wrap64 (instantAt events index - p) < silenceNs) :
    ∀ i, i + 1 < index + 1 → silenceNs ≤ instantAt events (i + 1) - instantAt events i →
      Spanned segments (instantAt events i) (instantAt events (i + 1)) := by
  intro i hi hlong
  rcases Nat.lt_or_ge (i + 1) index with hlt | hge
  · exact h.covered i hlt hlong
  · obtain rfl : index = i + 1 := by omega
    rcases h.last p rfl with hp | hspanned
    · -- the difference is exact, so the pass would have seen the silence
      rw [Nat.add_sub_cancel] at hp
      have hle := hsorted.le (show i ≤ i + 1 by omega) hinside
      rw [hp, wrap64_of_le (by omega) (hnear i hinside)] at hshort
      omega
    · exact hspanned

/-- The cursor at the next event. -/
theorem gapCoverage_next {index : Nat} {segments : List (Int × Int)}
    (hinside : index < events.length)
    (hearly : ∀ segment ∈ segments, segment.1 ≤ instantAt events index)
    (hcovered : ∀ i, i + 1 < index + 1 →
      silenceNs ≤ instantAt events (i + 1) - instantAt events i →
      Spanned segments (instantAt events i) (instantAt events (i + 1))) :
    GapCoverage events silenceNs ⟨index + 1, some (instantAt events index), segments⟩ where
  start hnone := absurd hnone (by simp)
  early p hp := by
    obtain rfl := Option.some.inj hp
    exact ⟨hearly, index, Nat.lt_succ_self _, hinside, rfl⟩
  last p hp := Or.inl (Option.some.inj hp).symm
  covered := hcovered

/-- The segments before a pass start no later than the event at the cursor. -/
theorem GapCoverage.starts_le {index : Nat} {p : Int} {segments : List (Int × Int)}
    (h : GapCoverage events silenceNs ⟨index, some p, segments⟩) (hsorted : TimeSorted events)
    (hinside : index < events.length) :
    p ≤ instantAt events index ∧ ∀ segment ∈ segments, segment.1 ≤ instantAt events index := by
  obtain ⟨hearly, k, hk, -, rfl⟩ := h.early p rfl
  have hle := hsorted.le (Nat.le_of_lt hk) hinside
  exact ⟨hle, fun segment hsegment => (hearly segment hsegment).trans hle⟩

/-- The starts stay that early if the new segment starts no later. -/
theorem forall_start_le_push {bound : Int} (h : ∀ segment ∈ segments, segment.1 ≤ bound)
    (hstart : start ≤ bound) :
    ∀ segment ∈ pushGapSegment segments start stop, segment.1 ≤ bound :=
  fun segment hsegment => (forall_pushGapSegment (P := (· ≤ bound)) (Q := fun _ => True)
    (fun segment hsegment => ⟨h segment hsegment, trivial⟩) hstart trivial segment hsegment).1

theorem GapCoverage.pass (hsorted : TimeSorted events) (hneighbour : 0 < neighbourNs)
    (hsilence : neighbourNs ≤ silenceNs)
    (hnear : ∀ i, i + 1 < events.length →
      instantAt events (i + 1) - instantAt events i ≤ i64Max)
    {before after : GapCursor} (h : GapCoverage events silenceNs before)
    (hpass : GapPass events silenceNs neighbourNs before after) :
    GapCoverage events silenceNs after := by
  cases hpass with
  | @quiet index previous segments hinside hshort =>
      cases previous with
      | none =>
          obtain ⟨hindex, hsegments⟩ := h.start rfl
          simp only at hindex hsegments
          subst hindex hsegments
          exact gapCoverage_next hinside (by simp) fun i hi => absurd hi (by omega)
      | some p =>
          exact gapCoverage_next hinside (h.starts_le hsorted hinside).2
            (h.at_cursor hsorted hnear hinside (hshort p rfl))
  | @silence index p segments hinside hlong =>
      obtain ⟨hp, hstarts⟩ := h.starts_le hsorted hinside
      refine gapCoverage_next hinside (forall_start_le_push hstarts hp) fun i hi hsilent => ?_
      rcases Nat.lt_or_ge (i + 1) index with hlt | hge
      · exact (h.covered i hlt hsilent).push _ _
      · obtain rfl : index = i + 1 := by omega
        rcases h.last p rfl with heq | hspanned
        · rw [Nat.add_sub_cancel] at heq
          subst heq
          exact spanned_pushGapSegment (by omega) (h.early _ rfl).1
        · exact hspanned.push _ _
  | @shutdown index p far segments hshort hlt hinside hlong hfirst =>
      have hindex := hlt.trans hinside
      have hstarts := (h.starts_le hsorted hindex).2
      -- up to the far event the differences are exact
      have hexact : instantAt events far - instantAt events index ≤ i64Max := by
        by_contra hlarge
        have hnegative := hsorted.wrap64_neg hindex hinside (not_le.mp hlarge)
        omega
      have hforward := hsorted.le (Nat.le_of_lt hlt) hinside
      rw [wrap64_of_le (by omega) hexact] at hlong
      have hbetween : ∀ k, index ≤ k → k < far →
          instantAt events k - instantAt events index < neighbourNs := by
        intro k hk hkfar
        have hlow := hsorted.le hk (hkfar.trans hinside)
        have hhigh := hsorted.le (Nat.le_of_lt hkfar) hinside
        have hnearby := hfirst k hk hkfar
        rwa [wrap64_of_le (by omega) (by omega)] at hnearby
      obtain ⟨segment, hsegment, hbegin, hend⟩ := spanned_pushGapSegment
        (show instantAt events index < instantAt events far by omega) hstarts
      have hearly : ∀ segment ∈ pushGapSegment segments (instantAt events index)
          (instantAt events far), segment.1 ≤ instantAt events index :=
        forall_start_le_push hstarts (le_refl (instantAt events index))
      refine ⟨fun hnone => absurd hnone (by simp), fun p hp => ?_, fun p hp => ?_,
        fun i hi hsilent => ?_⟩
      · obtain rfl := Option.some.inj hp
        exact ⟨hearly, index, hlt, hindex, rfl⟩
      · have hmiddle := hsorted.le (show index ≤ far - 1 by omega) (by omega)
        exact Or.inr ⟨segment, hsegment, hbegin.trans hmiddle, hend⟩
      · replace hi : i + 1 < far := hi
        rcases Nat.lt_or_ge index (i + 1) with hafter | hbefore
        · have hmiddle := hsorted.le (show index ≤ i by omega) (by omega)
          have hshortly := hbetween (i + 1) (by omega) hi
          omega
        · exact (h.at_cursor hsorted hnear hindex hshort i (by omega) hsilent).push _ _
  | @startup index p far segments hshort hlt hinside hlong =>
      obtain ⟨hp, hstarts⟩ := h.starts_le hsorted hinside
      refine gapCoverage_next hinside (forall_start_le_push hstarts
        (hsorted.le (Nat.le_of_lt hlt) hinside)) fun i hi hsilent => ?_
      exact (h.at_cursor hsorted hnear hinside hshort i hi hsilent).push _ _

/-! ## Silences that are not seen -/

/-- No segment reaches into a span that is too long for its difference. -/
structure GapApart (events : List (EyesEvent × EyesSignal)) (a b : Int) (cursor : GapCursor) :
    Prop where
  apart : ∀ segment ∈ cursor.segments, segment.2 ≤ a ∨ b ≤ segment.1
  previous : ∀ p ∈ cursor.previous, ∃ k, k < events.length ∧ p = instantAt events k

/-- Two instants whose difference is positive after wrapping are not on both sides of the span. -/
theorem TimeSorted.apart (h : TimeSorted events) {i j k : Nat} (hi : i + 1 < events.length)
    (hlarge : i64Max < instantAt events (i + 1) - instantAt events i) (hj : j < events.length)
    (hk : k < events.length) (hpos : 0 < wrap64 (instantAt events k - instantAt events j)) :
    instantAt events k ≤ instantAt events i ∨ instantAt events (i + 1) ≤ instantAt events j := by
  rcases Nat.lt_or_ge i k with hki | hki
  · rcases Nat.lt_or_ge i j with hji | hji
    · exact Or.inr (h.le hji hj)
    · -- the difference is at least that of the span
      have hlow := h.le hji (by omega)
      have hhigh := h.le hki hk
      have hnegative := h.wrap64_neg hj hk (by simp only [Nat.succ_eq_add_one] at hhigh; omega)
      omega
  · exact Or.inl (h.le hki (by omega))

theorem GapApart.pass (hsorted : TimeSorted events) (hneighbour : 0 < neighbourNs)
    (hsilence : 0 < silenceNs) {i : Nat} (hi : i + 1 < events.length)
    (hlarge : i64Max < instantAt events (i + 1) - instantAt events i) {before after : GapCursor}
    (h : GapApart events (instantAt events i) (instantAt events (i + 1)) before)
    (hpass : GapPass events silenceNs neighbourNs before after) :
    GapApart events (instantAt events i) (instantAt events (i + 1)) after := by
  have hspan : instantAt events i < instantAt events (i + 1) := by
    unfold i64Max at hlarge
    omega
  cases hpass with
  | quiet hinside hshort =>
      exact ⟨h.apart, fun _ hp => ⟨_, hinside, (Option.some.inj hp).symm⟩⟩
  | silence hinside hlong =>
      obtain ⟨k, hk, hp⟩ := h.previous _ rfl
      subst hp
      exact ⟨apart_pushGapSegment hspan h.apart (hsorted.apart hi hlarge hk hinside (by omega)),
        fun _ hp => ⟨_, hinside, (Option.some.inj hp).symm⟩⟩
  | shutdown hshort hlt hinside hlong hfirst =>
      have hindex := hlt.trans hinside
      exact ⟨apart_pushGapSegment hspan h.apart
        (hsorted.apart hi hlarge hindex hinside (by omega)),
        fun _ hp => ⟨_, hindex, (Option.some.inj hp).symm⟩⟩
  | startup hshort hlt hinside hlong =>
      exact ⟨apart_pushGapSegment hspan h.apart
        (hsorted.apart hi hlarge (hlt.trans hinside) hinside (by omega)),
        fun _ hp => ⟨_, hinside, (Option.some.inj hp).symm⟩⟩

/-! ## The segments of a stream -/

/-- The detection ends, and its segments are in order between instants of events. They hold every
silence between neighbouring events. -/
structure DetectsGaps (events : List (EyesEvent × EyesSignal)) (options : EyesOptions) : Prop where
  terminates : ∀ more, gapLoop events options.silenceNs options.neighbourNs
    (events.length + more) 0 none [] = detectGapSegments events options
  ordered : OrderedSegments (detectGapSegments events options)
  endpoints : ∀ segment ∈ detectGapSegments events options,
    EventInstant events segment.1 ∧ EventInstant events segment.2
  silences : ∀ i, i + 1 < events.length →
    options.silenceNs ≤ instantAt events (i + 1) - instantAt events i →
    Spanned (detectGapSegments events options) (instantAt events i) (instantAt events (i + 1))

theorem secondsToNs_le (seconds : Binary64) : secondsToNs seconds ≤ i64Max := by
  unfold secondsToNs Binary64.roundToI64
  split
  · exact max_le (by decide) (min_le_left _ _)
  · split
    · decide
    · exact le_rfl
  · decide

/-- What holds at the start and is kept by every pass holds at the end. -/
theorem detectGapSegments_run {options : EyesOptions} {I : GapCursor → Prop}
    (hpass : ∀ before after, GapPass events options.silenceNs options.neighbourNs before after →
      I before → I after) (h : I ⟨0, none, []⟩) :
    ∃ last, I last ∧ events.length ≤ last.index ∧
      detectGapSegments events options = last.segments :=
  gapLoop_run hpass h (Nat.le_add_left _ _)

/-- In any stream the segments are in order, between instants of events. -/
theorem detectGapSegments_shape (events : List (EyesEvent × EyesSignal)) (options : EyesOptions) :
    OrderedSegments (detectGapSegments events options) ∧
      ∀ segment ∈ detectGapSegments events options,
        EventInstant events segment.1 ∧ EventInstant events segment.2 := by
  have hstart : GapShape events ⟨0, none, []⟩ := ⟨⟨by simp, .nil⟩, by simp, by simp⟩
  obtain ⟨last, hshape, -, heq⟩ := @detectGapSegments_run events options (GapShape events)
    (fun _ _ hpass hbefore => hbefore.pass hpass) hstart
  rw [heq]
  exact ⟨hshape.ordered, hshape.endpoints⟩

/-- The detection finds every gap of a stream in order of time exactly if no two neighbouring events
are further apart than a 64-bit difference can say. -/
theorem detect_gap_segments_iff {options : EyesOptions} (hsorted : TimeSorted events)
    (hneighbour : 0 < options.neighbourNs) (hsilence : options.neighbourNs ≤ options.silenceNs) :
    DetectsGaps events options ↔ ∀ i, i + 1 < events.length →
      instantAt events (i + 1) - instantAt events i ≤ i64Max := by
  constructor
  · intro h i hi
    by_contra hlarge
    rw [not_le] at hlarge
    have hlong : options.silenceNs ≤ instantAt events (i + 1) - instantAt events i :=
      (secondsToNs_le _).trans hlarge.le
    obtain ⟨segment, hsegment, hbegin, hend⟩ := h.silences i hi hlong
    have hstart : GapApart events (instantAt events i) (instantAt events (i + 1)) ⟨0, none, []⟩ :=
      ⟨by simp, by simp⟩
    obtain ⟨last, hlast, -, heq⟩ := detectGapSegments_run (fun before after hpass hbefore =>
      hbefore.pass hsorted hneighbour (hneighbour.trans_le hsilence) hi hlarge hpass) hstart
    have hapart := hlast.apart segment (heq ▸ hsegment)
    unfold i64Max at hlarge
    omega
  · intro hnear
    obtain ⟨hordered, hendpoints⟩ := detectGapSegments_shape events options
    have hstart : GapCoverage events options.silenceNs ⟨0, none, []⟩ :=
      ⟨by simp, by simp, by simp, by simp⟩
    obtain ⟨last, hcoverage, hend, heq⟩ := detectGapSegments_run (fun before after hpass hbefore =>
      hbefore.pass hsorted hneighbour hsilence hnear hpass) hstart
    refine ⟨gapLoop_add_fuel ⟨0, none, []⟩ (by simp), hordered, hendpoints, ?_⟩
    rw [heq]
    exact fun i hi hlong => hcoverage.covered i (hi.trans_le hend) hlong

/-- A silence of four hours and a shutdown at its end. -/
def shutdownEvents : List (EyesEvent × EyesSignal) :=
  [(⟨0, "Screen Interactive", ""⟩, .screenInteractive),
    (⟨14400000000000, "Device Shutdown", ""⟩, .deviceShutdown),
    (⟨14402000000000, "Device Startup", ""⟩, .deviceStartup)]

theorem detect_gap_segments_shutdown :
    DetectsGaps shutdownEvents (productionOptions 2000000000) ↔
      ∀ i, i + 1 < shutdownEvents.length →
        instantAt shutdownEvents (i + 1) - instantAt shutdownEvents i ≤ i64Max :=
  detect_gap_segments_iff ⟨by decide, by decide⟩ (by decide +kernel) (by decide +kernel)

/-- Two events of the years 1684 and 2255. -/
def distantEvents : List (EyesEvent × EyesSignal) :=
  [(⟨-9000000000000000000, "Screen Interactive", ""⟩, .screenInteractive),
    (⟨9000000000000000000, "Screen Interactive", ""⟩, .screenInteractive)]

/-- The silence between them is not seen. -/
theorem detect_gap_segments_distant : ¬∀ (events : List (EyesEvent × EyesSignal))
    (options : EyesOptions), TimeSorted events → 0 < options.neighbourNs →
      options.neighbourNs ≤ options.silenceNs → DetectsGaps events options := by
  intro h
  have hdetects := h distantEvents (productionOptions 2000000000) ⟨by decide, by decide⟩
    (by decide +kernel) (by decide +kernel)
  have hnone : detectGapSegments distantEvents (productionOptions 2000000000) = [] := by
    decide +kernel
  obtain ⟨segment, hsegment, -⟩ := hdetects.silences 0 (by decide) (by decide +kernel)
  rw [hnone] at hsegment
  exact List.not_mem_nil hsegment

end Chronicle.Eyes
