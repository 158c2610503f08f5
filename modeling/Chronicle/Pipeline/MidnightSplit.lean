import Chronicle.Pipeline.Attribution
import Chronicle.Pipeline.Cleaning

/-!
# Sessions divided at local midnight

A session is cut at the starts of the days after the day it begins on. The parts tile the session;
no part holds instants of two dates, unless the zone's dates go back.
-/

namespace Chronicle.Pipeline

open Chronicle.Library Chronicle.Library.Machine Chronicle.Library.Tiling

/-! ## Day starts -/

/-- Later days start later. -/
def DayStartsIncrease (zone : Zone) : Prop :=
  ∀ day day' start start', day < day' → localDayStartNs zone day = some start →
    localDayStartNs zone day' = some start' → start < start'

/-- The zone's dates run forward: of two instants that show different dates, the day of the later
date starts after the one and not after the other. -/
structure DatesRunForward (zone : Zone) : Prop where
  begins : ∀ t t', Fits64 t → Fits64 t' → zone.localDay t < zone.localDay t' →
    ∃ start, localDayStartNs zone (zone.localDay t') = some start ∧ t < start ∧ start ≤ t'
  within : ∀ t, Fits64 t → zone.localDay t ≤ maxDay

section Boundaries

variable {zone : Zone} {startNs stopNs boundary : Int} {remaining : Nat} {day : Int}

/-- The loop finds the starts of the days after `day` that lie inside the session. -/
theorem mem_localMidnightsAfter (hincrease : DayStartsIncrease zone) :
    boundary ∈ localMidnightsAfter zone startNs stopNs remaining day ↔
      ∃ later, day < later ∧ later ≤ day + remaining ∧
        localDayStartNs zone later = some boundary ∧ startNs < boundary ∧ boundary < stopNs := by
  induction remaining generalizing day with
  | zero =>
      refine iff_of_false List.not_mem_nil ?_
      rintro ⟨later, hafter, hbefore, -⟩
      simp at hbefore
      omega
  | succ remaining ih =>
      -- the next day, or one of the days after it
      have hsplit : (∃ later, day < later ∧ later ≤ day + ↑(remaining + 1) ∧
          localDayStartNs zone later = some boundary ∧ startNs < boundary ∧ boundary < stopNs) ↔
          (localDayStartNs zone (day + 1) = some boundary ∧ startNs < boundary ∧
            boundary < stopNs) ∨
          ∃ later, day + 1 < later ∧ later ≤ day + 1 + remaining ∧
            localDayStartNs zone later = some boundary ∧ startNs < boundary ∧
              boundary < stopNs := by
        constructor
        · rintro ⟨later, hafter, hbefore, hstart⟩
          rcases (show day + 1 ≤ later by omega).eq_or_lt with rfl | hlt
          · exact .inl hstart
          · exact .inr ⟨later, hlt, by omega, hstart⟩
        · rintro (hstart | ⟨later, hafter, hbefore, hstart⟩)
          · exact ⟨day + 1, by omega, by omega, hstart⟩
          · exact ⟨later, by omega, by omega, hstart⟩
      rw [hsplit, localMidnightsAfter]
      cases hnext : localDayStartNs zone (day + 1) with
      | none => simp [ih]
      | some instant =>
          dsimp only
          split
          · -- no later day starts before the session ends
            rename_i hpast
            refine iff_of_false List.not_mem_nil ?_
            rintro (⟨hinstant, -, hinside⟩ | ⟨later, hafter, -, hstart, -, hinside⟩)
            · obtain rfl := Option.some.inj hinstant
              omega
            · have := hincrease _ _ _ _ hafter hnext hstart
              omega
          · rename_i hpast
            split
            · rename_i hinside
              rw [List.mem_cons, ih, Option.some_inj]
              refine or_congr_left ⟨fun heq => ⟨heq.symm, by omega, by omega⟩, fun h => h.1.symm⟩
            · rename_i hbefore
              rw [ih, Option.some_inj]
              refine (or_iff_right ?_).symm
              rintro ⟨rfl, hlater, -⟩
              exact hbefore hlater

theorem pairwise_localMidnightsAfter (hincrease : DayStartsIncrease zone) :
    (localMidnightsAfter zone startNs stopNs remaining day).Pairwise (· < ·) := by
  induction remaining generalizing day with
  | zero => exact List.Pairwise.nil
  | succ remaining ih =>
      rw [localMidnightsAfter]
      cases hnext : localDayStartNs zone (day + 1) with
      | none => exact ih
      | some instant =>
          dsimp only
          split
          · exact List.Pairwise.nil
          · split
            · refine List.pairwise_cons.mpr ⟨fun boundary hboundary => ?_, ih⟩
              obtain ⟨later, hafter, -, hstart, -⟩ := (mem_localMidnightsAfter hincrease).mp hboundary
              exact hincrease _ _ _ _ hafter hnext hstart
            · exact ih

/-- The boundaries are the starts of the days after the first that lie inside the session. -/
theorem mem_localMidnightsWithin (hincrease : DayStartsIncrease zone) (hlt : startNs < stopNs) :
    boundary ∈ localMidnightsWithin zone startNs stopNs ↔
      ∃ later, zone.localDay startNs < later ∧ later ≤ maxDay ∧
        localDayStartNs zone later = some boundary ∧ startNs < boundary ∧ boundary < stopNs := by
  rw [localMidnightsWithin, if_neg (not_le.mpr hlt), mem_localMidnightsAfter hincrease]
  refine exists_congr fun later => and_congr_right fun hafter => and_congr_left fun _ => ?_
  omega

/-- The session is cut into an ascending list of instants. -/
theorem pairwise_edges (hincrease : DayStartsIncrease zone) (hlt : startNs < stopNs) :
    (startNs :: (localMidnightsWithin zone startNs stopNs ++ [stopNs])).Pairwise (· < ·) := by
  have hinside : ∀ boundary ∈ localMidnightsWithin zone startNs stopNs,
      startNs < boundary ∧ boundary < stopNs := fun boundary hboundary => by
    obtain ⟨later, -, -, -, hinside⟩ := (mem_localMidnightsWithin hincrease hlt).mp hboundary
    exact hinside
  refine List.pairwise_cons.mpr ⟨fun edge hedge => ?_, List.pairwise_append.mpr
    ⟨?_, List.pairwise_singleton _ _, fun boundary hboundary edge hedge => ?_⟩⟩
  · rcases List.mem_append.mp hedge with hedge | hedge
    · exact (hinside edge hedge).1
    · exact List.mem_singleton.mp hedge ▸ hlt
  · rw [localMidnightsWithin, if_neg (not_le.mpr hlt)]
    exact pairwise_localMidnightsAfter hincrease
  · exact List.mem_singleton.mp hedge ▸ (hinside boundary hboundary).2

end Boundaries

/-! ## Parts -/

/-- A later day starts inside the session. -/
def DayStartsInside (zone : Zone) (startNs stopNs : Int) : Prop :=
  ∃ day start, zone.localDay startNs < day ∧ day ≤ maxDay ∧
    localDayStartNs zone day = some start ∧ startNs < start ∧ start < stopNs

/-- Part `n` of a divided row: the row with the bounds of the part, what is computed from them, and
an index from the band of the part. -/
structure PartOf (zone : Zone) (row : Row) (n : Nat) (part : Row) : Prop where
  bounds : part.startTimestampNs = some part.sessionStart ∧
    part.stopTimestampNs = some part.sessionStop ∧ part.eventTimestampNs = part.sessionStart
  kept : part = { row with
    eventTimestampNs := part.eventTimestampNs, startTimestampNs := part.startTimestampNs
    stopTimestampNs := part.stopTimestampNs, durationSeconds := part.durationSeconds
    durationMinutes := part.durationMinutes, date := part.date, day := part.day
    weekdayMf := part.weekdayMf, weekdayMth := part.weekdayMth, weekdaySuTh := part.weekdaySuTh
    hour := part.hour, quarter := part.quarter, index := part.index }
  index : part.index = min (row.index + n * 4000000 % 2 ^ 32) (2 ^ 32 - 1)
  blank : row.durationSeconds = none → part.durationSeconds = none ∧ part.durationMinutes = none
  published : row.durationSeconds ≠ none → Fits64 (part.sessionStop - part.sessionStart) →
    part.durationSeconds = some (durationSecondsOf (part.sessionStop - part.sessionStart)) ∧
    part.durationMinutes =
      some ((durationSecondsOf (part.sessionStop - part.sessionStart)).divConst 60)
  date : part.date = dateString (zone.localDay part.sessionStart)

section Parts

variable {calendar : Calendar} {zone : Zone} {row : Row} {start stop left right t : Int} {n : Nat}

@[simp]
theorem sessionStart_midnightPiece :
    (midnightPiece zone row n left right).sessionStart = left := by
  unfold midnightPiece
  dsimp only
  split <;> rfl

@[simp]
theorem sessionStop_midnightPiece :
    (midnightPiece zone row n left right).sessionStop = right := by
  unfold midnightPiece
  dsimp only
  split <;> rfl

theorem partOf_midnightPiece : PartOf zone row n (midnightPiece zone row n left right) := by
  unfold midnightPiece
  dsimp only
  cases hduration : row.durationSeconds with
  | none =>
      exact ⟨⟨rfl, rfl, rfl⟩, rfl, rfl, fun _ => ⟨rfl, rfl⟩, fun hsome => absurd hduration hsome, rfl⟩
  | some seconds =>
      refine ⟨⟨rfl, rfl, rfl⟩, rfl, rfl, fun hnone => ?_, fun _ hfits => ?_, rfl⟩
      · simp [hduration] at hnone
      · have hlength : wrap64 (right - left) = right - left := wrap64_of_fits hfits
        exact ⟨congrArg (fun ns => some (durationSecondsOf ns)) hlength,
          congrArg (fun ns => some ((durationSecondsOf ns).divConst 60)) hlength⟩

theorem map_snd_positioned {α : Type} (l : List α) : (positioned l).map Prod.snd = l := by
  rw [positioned, List.map_map]
  exact List.zipIdx_map_fst 0 l

theorem getElem?_positioned {α : Type} {l : List α} {entry : Nat × α}
    (h : (positioned l)[n]? = some entry) : entry.1 = n := by
  rw [positioned, List.getElem?_map, List.getElem?_zipIdx, Option.map_map] at h
  obtain ⟨x, -, rfl⟩ := Option.map_eq_some_iff.mp h
  exact Nat.zero_add n

/-- What the stage makes of one row. -/
theorem splitSessions_singleton (hzone : calendar.zone row.timezone = some zone)
    (hstart : row.startTimestampNs = some start) (hstop : row.stopTimestampNs = some stop) :
    splitSessionsAtLocalMidnight calendar [row] .splitAtLocalMidnight =
      if (localMidnightsWithin zone start stop).isEmpty then [row]
      else midnightPieces zone row (start :: localMidnightsWithin zone start stop ++ [stop]) := by
  rw [splitSessionsAtLocalMidnight, List.flatMap_singleton, splitAtMidnight, hstart, hstop, hzone]

variable (row) in
/-- The parts tile the session. -/
theorem tiles_midnightPieces (hincrease : DayStartsIncrease zone) (hlt : start < stop) :
    Tiles Row.sessionStart Row.sessionStop start
      (midnightPieces zone row (start :: localMidnightsWithin zone start stop ++ [stop])) stop := by
  unfold midnightPieces
  rw [tiles_map]
  simp only [sessionStart_midnightPiece, sessionStop_midnightPiece]
  have hneighbours := tiles_neighbours (pairwise_edges hincrease hlt)
  rw [← map_snd_positioned (List.zip _ _), tiles_map] at hneighbours
  exact hneighbours

/-- A row that is divided is divided into parts. -/
theorem partOf_of_getElem? {edges : List Int} {part : Row}
    (h : (midnightPieces zone row edges)[n]? = some part) : PartOf zone row n part := by
  rw [midnightPieces, List.getElem?_map, Option.map_eq_some_iff] at h
  obtain ⟨entry, hentry, rfl⟩ := h
  rw [getElem?_positioned hentry]
  exact partOf_midnightPiece

/-- No part spans two dates if the zone's dates run forward. -/
theorem localDay_eq_of_holds (hincrease : DayStartsIncrease zone) (hforward : DatesRunForward zone)
    (hlt : start < stop) (hstart : Fits64 start) (hstop : Fits64 stop) (piece : Int × Int)
    (hpiece : piece ∈ (start :: (localMidnightsWithin zone start stop ++ [stop])).zip
      (localMidnightsWithin zone start stop ++ [stop]))
    (ht : piece.1 ≤ t) (ht' : t < piece.2) : zone.localDay t = zone.localDay piece.1 := by
  have hedges := pairwise_edges hincrease hlt
  obtain ⟨hfirst, -, hlast⟩ := (tiles_neighbours hedges).bounds hpiece
  have hfits : ∀ x, start ≤ x → x ≤ stop → Fits64 x := fun x hge hle => by
    rw [fits64_iff] at hstart hstop ⊢
    omega
  have hpieceFits := hfits piece.1 hfirst (by omega)
  have htFits := hfits t (by omega) (by omega)
  rcases lt_trichotomy (zone.localDay t) (zone.localDay piece.1) with hless | heq | hmore
  · obtain ⟨_, -, hafter, hbefore⟩ := hforward.begins t piece.1 htFits hpieceFits hless
    omega
  · exact heq
  · -- the day of the instant starts inside the piece, so the piece would have been cut there
    obtain ⟨boundary, hboundary, hafter, hbefore⟩ :=
      hforward.begins piece.1 t hpieceFits htFits hmore
    have hday : zone.localDay start < zone.localDay t := by
      rcases lt_or_ge (zone.localDay piece.1) (zone.localDay start) with hback | hge
      · obtain ⟨_, -, hlater, hnot⟩ := hforward.begins piece.1 start hpieceFits hstart hback
        omega
      · omega
    have hmem : boundary ∈ localMidnightsWithin zone start stop :=
      (mem_localMidnightsWithin hincrease hlt).mpr
        ⟨_, hday, hforward.within t htFits, hboundary, by omega, by omega⟩
    rcases le_or_le_of_mem_neighbours hedges hmem hpiece with hle | hle <;> omega

/-- The parts of a session tile it and carry its data; only the times and the index are new. -/
theorem splitSessionsAtLocalMidnight_parts (hincrease : DayStartsIncrease zone)
    (hzone : calendar.zone row.timezone = some zone) (hstart : row.startTimestampNs = some start)
    (hstop : row.stopTimestampNs = some stop) (hlt : start < stop) :
    let out := splitSessionsAtLocalMidnight calendar [row] .splitAtLocalMidnight
    Tiles Row.sessionStart Row.sessionStop start out stop ∧
    (out.map fun part => part.sessionStop - part.sessionStart).sum = stop - start ∧
    (¬ DayStartsInside zone start stop → out = [row]) ∧
    (DayStartsInside zone start stop →
      ∀ (n : Nat) (part : Row), out[n]? = some part → PartOf zone row n part) ∧
    (DatesRunForward zone → Fits64 start → Fits64 stop → ∀ part ∈ out, ∀ t,
      Holds Row.sessionStart Row.sessionStop part t →
        zone.localDay t = zone.localDay part.sessionStart) := by
  dsimp only
  rw [splitSessions_singleton hzone hstart hstop]
  have hedges := pairwise_edges hincrease hlt
  by_cases hempty : localMidnightsWithin zone start stop = []
  · -- the row is emitted as it is
    have hnone : ¬ DayStartsInside zone start stop := by
      rintro ⟨day, boundary, hboundary⟩
      have hmem := (mem_localMidnightsWithin hincrease hlt).mpr ⟨day, hboundary⟩
      rw [hempty] at hmem
      exact List.not_mem_nil hmem
    have hstartEq : row.sessionStart = start := by rw [Row.sessionStart, hstart]; rfl
    have hstopEq : row.sessionStop = stop := by rw [Row.sessionStop, hstop]; rfl
    rw [hempty, List.isEmpty_nil, if_pos rfl]
    refine ⟨⟨hstartEq, by rw [hstartEq, hstopEq]; exact hlt, hstopEq⟩,
      by simp [hstartEq, hstopEq], fun _ => rfl, fun hinside => absurd hinside hnone, ?_⟩
    intro hforward hstartFits hstopFits part hpart t ht
    obtain rfl := List.mem_singleton.mp hpart
    obtain ⟨hle, hbefore⟩ := ht
    rw [hstartEq] at hle ⊢
    rw [hstopEq] at hbefore
    refine localDay_eq_of_holds hincrease hforward hlt hstartFits hstopFits (start, stop) ?_ hle
      hbefore
    rw [hempty]
    exact List.mem_singleton_self _
  · -- the row is cut at every midnight inside it
    have hinside : DayStartsInside zone start stop := by
      obtain ⟨boundary, hboundary⟩ := List.exists_mem_of_ne_nil _ hempty
      obtain ⟨day, hday⟩ := (mem_localMidnightsWithin hincrease hlt).mp hboundary
      exact ⟨day, boundary, hday⟩
    have htiles := tiles_midnightPieces row hincrease hlt
    rw [if_neg (by simpa using hempty)]
    refine ⟨htiles, htiles.sum_lengths, fun hnone => absurd hinside hnone,
      fun _ n part hpart => partOf_of_getElem? hpart, ?_⟩
    intro hforward hstartFits hstopFits part hpart t ht
    obtain ⟨entry, hentry, rfl⟩ := List.mem_map.mp hpart
    rw [Holds, sessionStart_midnightPiece, sessionStop_midnightPiece] at ht
    rw [sessionStart_midnightPiece]
    refine localDay_eq_of_holds hincrease hforward hlt hstartFits hstopFits entry.2 ?_ ht.1
      ht.2
    have hmem := List.mem_map_of_mem (f := Prod.snd) hentry
    rwa [map_snd_positioned] at hmem

end Parts

/-! ## Where a day starts at its midnight -/

theorem localDayStartNs_of_midnight {zone : Zone} {day : Int} {start : Option Int}
    (h : (zone.fromLocal (day * nsPerDay)).resolve = some start) :
    localDayStartNs zone day = start := by
  rw [localDayStartNs, List.range_succ_eq_map]
  simp [h]

theorem dayStartsIncrease_utc : DayStartsIncrease Zone.utc := by
  intro day day' start start' hlt hstart hstart'
  rw [localDayStartNs_of_midnight rfl] at hstart hstart'
  rw [← (checked64_eq_some.mp hstart).2, ← (checked64_eq_some.mp hstart').2]
  unfold nsPerDay
  omega

theorem datesRunForward_utc : DatesRunForward Zone.utc where
  begins t t' ht ht' hlt := by
    rw [fits64_iff] at ht ht'
    have hday : ∀ instant, Zone.utc.localDay instant = instant / nsPerDay := fun _ => rfl
    rw [hday, hday] at hlt
    rw [hday]
    refine ⟨t' / nsPerDay * nsPerDay, ?_, ?_, ?_⟩
    · refine localDayStartNs_of_midnight (congrArg some (checked64_eq_some.mpr ⟨?_, rfl⟩))
      rw [fits64_iff]
      unfold nsPerDay at *
      omega
    · unfold nsPerDay at *
      omega
    · unfold nsPerDay at *
      omega
  within t ht := by
    rw [fits64_iff] at ht
    change t / nsPerDay ≤ maxDay
    unfold nsPerDay maxDay
    omega

/-- A zone that sets its clocks back from 00:01 to 23:01 of the day before. -/
def lateFallBack : Zone where
  toLocal instant :=
    if instant < -3540000000000 then instant + 3600000000000 else instant
  fromLocal reading :=
    if reading < -3540000000000 then .single (reading - 3600000000000)
    else if reading < 60000000000 then .ambiguous (reading - 3600000000000) reading
    else .single reading

theorem dayStartsIncrease_lateFallBack : DayStartsIncrease lateFallBack := by
  have hstart : ∀ day start, localDayStartNs lateFallBack day = some start →
      start = if day * nsPerDay < 60000000000 then day * nsPerDay - 3600000000000
        else day * nsPerDay := by
    intro day start h
    by_cases hearly : day * nsPerDay < -3540000000000
    · have hresolve : (lateFallBack.fromLocal (day * nsPerDay)).resolve =
          some (checked64 (day * nsPerDay - 3600000000000)) := by
        rw [lateFallBack]
        dsimp only
        rw [if_pos hearly]
        rfl
      rw [localDayStartNs_of_midnight hresolve] at h
      rw [if_pos (by omega), (checked64_eq_some.mp h).2]
    · by_cases hambiguous : day * nsPerDay < 60000000000
      · have hresolve : (lateFallBack.fromLocal (day * nsPerDay)).resolve =
            some (checked64 (day * nsPerDay - 3600000000000)) := by
          rw [lateFallBack]
          dsimp only
          rw [if_neg hearly, if_pos hambiguous]
          rfl
        rw [localDayStartNs_of_midnight hresolve] at h
        rw [if_pos hambiguous, (checked64_eq_some.mp h).2]
      · have hresolve : (lateFallBack.fromLocal (day * nsPerDay)).resolve =
            some (checked64 (day * nsPerDay)) := by
          rw [lateFallBack]
          dsimp only
          rw [if_neg hearly, if_neg hambiguous]
          rfl
        rw [localDayStartNs_of_midnight hresolve] at h
        rw [if_neg hambiguous, (checked64_eq_some.mp h).2]
  intro day day' start start' hlt h h'
  rw [hstart _ _ h, hstart _ _ h']
  unfold nsPerDay
  split <;> split <;> omega

/-- Three tenths of a second around midnight. -/
def midnightRow : Row := (appUsageRow 86399900000000 86400200000000).publishDuration 300000000

/-- From a quarter to midnight, as shown the second time, to one o'clock. -/
def repeatedRow : Row := appUsageRow (-900000000000) 3600000000000

/-- Parts get an index of their own, their rounded durations need not add up to that of the row,
and where dates go back a part may hold two of them. -/
theorem parts_fall_short :
    (DayStartsIncrease Zone.utc ∧ ∃ first second a b total,
      splitSessionsAtLocalMidnight ⟨fun _ => some Zone.utc, fun _ => none⟩ [midnightRow]
        .splitAtLocalMidnight = [first, second] ∧
      second.index ≠ midnightRow.index ∧ first.durationSeconds = some a ∧
      second.durationSeconds = some b ∧ midnightRow.durationSeconds = some total ∧
      a.add b ≠ total) ∧
    DayStartsIncrease lateFallBack ∧
      ∃ part ∈ splitSessionsAtLocalMidnight ⟨fun _ => some lateFallBack, fun _ => none⟩
        [repeatedRow] .splitAtLocalMidnight,
      ∃ t, Holds Row.sessionStart Row.sessionStop part t ∧
        lateFallBack.localDay t ≠ lateFallBack.localDay part.sessionStart := by
  refine ⟨⟨dayStartsIncrease_utc, midnightPiece Zone.utc midnightRow 0 86399900000000 86400000000000,
    midnightPiece Zone.utc midnightRow 1 86400000000000 86400200000000, durationSecondsOf 100000000,
    durationSecondsOf 200000000, durationSecondsOf 300000000, rfl, by decide +kernel, rfl, rfl, rfl,
    by decide +kernel⟩, dayStartsIncrease_lateFallBack, repeatedRow, ?_, 0, by unfold Holds; decide +kernel,
    by decide +kernel⟩
  have hwhole : splitSessionsAtLocalMidnight ⟨fun _ => some lateFallBack, fun _ => none⟩
      [repeatedRow] .splitAtLocalMidnight = [repeatedRow] := by
    rw [splitSessions_singleton rfl rfl rfl, if_pos (by decide +kernel)]
  rw [hwhole]
  exact List.mem_singleton_self _

/-- A row around midnight in a zone whose dates run forward. -/
theorem splitSessionsAtLocalMidnight_parts_midnightRow :
    let out := splitSessionsAtLocalMidnight ⟨fun _ => some Zone.utc, fun _ => none⟩ [midnightRow]
      .splitAtLocalMidnight
    Tiles Row.sessionStart Row.sessionStop 86399900000000 out 86400200000000 ∧
    (out.map fun part => part.sessionStop - part.sessionStart).sum =
      86400200000000 - 86399900000000 ∧
    (DayStartsInside Zone.utc 86399900000000 86400200000000 ∧
      ∀ (n : Nat) (part : Row), out[n]? = some part → PartOf Zone.utc midnightRow n part) ∧
    ∀ part ∈ out, ∀ t, Holds Row.sessionStart Row.sessionStop part t →
      Zone.utc.localDay t = Zone.utc.localDay part.sessionStart := by
  obtain ⟨htiles, hsum, -, hparts, hdates⟩ :=
    @splitSessionsAtLocalMidnight_parts ⟨fun _ => some Zone.utc, fun _ => none⟩ Zone.utc
      midnightRow _ _ dayStartsIncrease_utc rfl rfl rfl (by decide)
  have hinside : DayStartsInside Zone.utc 86399900000000 86400200000000 :=
    ⟨1, 86400000000000, by decide, by decide, localDayStartNs_of_midnight rfl, by decide, by decide⟩
  exact ⟨htiles, hsum, ⟨hinside, hparts hinside⟩, hdates datesRunForward_utc
    (fits64_iff.mpr (by decide)) (fits64_iff.mpr (by decide))⟩

end Chronicle.Pipeline
