import Chronicle.Library.LinkedRuns
import Chronicle.Library.Machine

/-!
# Emulating a polled collector

`sample_polled_timeline` puts a sample at every grid instant inside an episode and sorts all samples
by instant. `group_polled_runs` groups neighbouring samples of one app into runs. Of a table row
only the participant, the package and the two episode instants are read.
-/

namespace Chronicle.Polled

open Chronicle.Library.Machine Chronicle.Library.LinkedRuns

/-- `PolledEmulationMethod`. -/
inductive PolledEmulationMethod where
  | none
  | ross2025SampledGapV1
  | cerit2025SampleCountV1
deriving DecidableEq, Repr

/-- Whether the method closes a run on a sampled gap. -/
def PolledEmulationMethod.usesGapThreshold : PolledEmulationMethod → Bool
  | .ross2025SampledGapV1 => true
  | _ => false

/-- The fields of an app row that the emulation reads. -/
structure Row where
  participantId : String
  appPackageName : String
  startTimestampNs : Option Int
  stopTimestampNs : Option Int
deriving DecidableEq, Repr

/-- One poll that found an episode's app in the foreground. -/
structure PolledSample where
  rowIndex : Nat
  instantNs : Int
deriving DecidableEq, Repr

/-- One emulated session. -/
structure PolledRun where
  rowIndex : Nat
  firstInstantNs : Int
  lastInstantNs : Int
  sampleCount : Nat
  forcedTerminal : Bool
deriving DecidableEq, Repr

section Sampling

variable (intervalNs : Int)

/-- The first grid instant at or after `start`. -/
def firstInstant (start : Int) : Int :=
  let first := wrap64 (start / intervalNs * intervalNs)
  if first < start then wrap64 (first + intervalNs) else first

/-- The `while instant <= stop` loop. -/
def instantsFrom (stop : Int) : Nat → Int → List Int
  | 0, _ => []
  | fuel + 1, instant =>
      if instant ≤ stop then
        instant ::
          match checked64 (instant + intervalNs) with
          | some next => instantsFrom stop fuel next
          | none => []
      else []

/-- The grid instants of one row. -/
def rowInstants (row : Row) : List Int :=
  match row.startTimestampNs, row.stopTimestampNs with
  | some start, some stop =>
      if stop < start then []
      else
        let instant := firstInstant intervalNs start
        instantsFrom intervalNs stop (((stop - instant) / intervalNs).toNat + 1) instant
  | _, _ => []

/-- The samples of one row. -/
def rowSamples (entry : Row × Nat) : List PolledSample :=
  (rowInstants intervalNs entry.1).map fun instant =>
    { rowIndex := entry.2, instantNs := instant }

/-- `sample_polled_timeline`. -/
def samplePolledTimeline (appRows : List Row) : List PolledSample :=
  if intervalNs ≤ 0 then []
  else
    (appRows.zipIdx.flatMap (rowSamples intervalNs)).mergeSort fun a b =>
      decide (a.instantNs ≤ b.instantNs)

end Sampling

section Grouping

variable (appRows : List Row) (method : PolledEmulationMethod) (intervalNs gapNs : Int)

/-- The participant and the package of a row. -/
def identity (index : Nat) : Option (String × String) :=
  (appRows[index]?).map fun row => (row.participantId, row.appPackageName)

/-- The gap from which on a run breaks. -/
def breakAtNs : Int :=
  if method.usesGapThreshold then gapNs else saturate64 (intervalNs + 1)

/-- The run that one sample opens. -/
def openRun (sample : PolledSample) : PolledRun where
  rowIndex := sample.rowIndex
  firstInstantNs := sample.instantNs
  lastInstantNs := sample.instantNs
  sampleCount := 1
  forcedTerminal := false

/-- The open run takes one more sample. -/
def extendRun (current : PolledRun) (sample : PolledSample) : PolledRun :=
  { current with
    lastInstantNs := sample.instantNs
    sampleCount := current.sampleCount + 1 }

/-- Whether a sample belongs to the open run. -/
def joinsRun (current : PolledRun) (sample : PolledSample) : Bool :=
  identity appRows current.rowIndex == identity appRows sample.rowIndex &&
    decide (saturate64 (sample.instantNs - current.lastInstantNs) <
      breakAtNs method intervalNs gapNs)

/-- `group_polled_runs`. -/
def groupPolledRuns (samples : List PolledSample) : List PolledRun :=
  let final := samples.foldl
    (collectStep openRun extendRun (joinsRun appRows method intervalNs gapNs)) ([], none)
  match final.2 with
  | some finished =>
      final.1 ++ [{ finished with forcedTerminal := method.usesGapThreshold }]
  | none => final.1

/-- The runs of a table. -/
def polledRuns : List PolledRun :=
  groupPolledRuns appRows method intervalNs gapNs (samplePolledTimeline intervalNs appRows)

end Grouping

/-! ## What a row is polled at -/

/-- A poller meets the row at the instant: a grid instant inside its episode. -/
def Polls (intervalNs : Int) (row : Row) (instant : Int) : Prop :=
  ∃ start stop, row.startTimestampNs = some start ∧ row.stopTimestampNs = some stop ∧
    start ≤ stop ∧ firstInstant intervalNs start ≤ instant ∧ instant ≤ stop ∧
    instant ≤ i64Max ∧ intervalNs ∣ instant - firstInstant intervalNs start

variable {intervalNs : Int}

theorem firstInstant_fits (start : Int) : Fits64 (firstInstant intervalNs start) := by
  unfold firstInstant
  dsimp only
  split
  · exact wrap64_fits _
  · exact wrap64_fits _

/-- A later grid instant is at least one interval later. -/
theorem next_le_of_dvd {instant t : Int} (hdvd : intervalNs ∣ t - instant) (hlt : instant < t) :
    instant + intervalNs ≤ t := by
  have hle := Int.le_of_dvd (by omega) hdvd
  omega

/-- The loop visits the grid instants up to the stop. -/
theorem mem_instantsFrom (hpos : 0 < intervalNs) {stop instant t : Int} {fuel : Nat}
    (hinstant : Fits64 instant) (hfuel : (stop - instant) / intervalNs < fuel) :
    t ∈ instantsFrom intervalNs stop fuel instant ↔
      instant ≤ t ∧ t ≤ stop ∧ t ≤ i64Max ∧ intervalNs ∣ t - instant := by
  induction fuel generalizing instant with
  | zero =>
      have hneg : stop - instant < 0 := by
        by_contra hnot
        have := Int.ediv_nonneg (Int.not_lt.mp hnot) (Int.le_of_lt hpos)
        omega
      simp only [instantsFrom, List.not_mem_nil, false_iff]
      omega
  | succ fuel ih =>
      rw [instantsFrom]
      by_cases hle : instant ≤ stop
      · rw [if_pos hle, List.mem_cons]
        have hself : instant ≤ i64Max := hinstant.2
        -- one step fewer is left after the next instant
        have hstep : (stop - (instant + intervalNs)) / intervalNs < fuel := by
          have hone := Int.sub_ediv_of_dvd (stop - instant) (Int.dvd_refl intervalNs)
          rw [Int.ediv_self (by omega)] at hone
          rw [show stop - (instant + intervalNs) = stop - instant - intervalNs by omega]
          omega
        constructor
        · rintro (rfl | hmem)
          · exact ⟨Int.le_refl _, hle, hself, by simp⟩
          · -- an instant past the last representable one ends the list
            cases hnext : checked64 (instant + intervalNs) with
            | none => simp [hnext] at hmem
            | some next =>
                obtain ⟨hfits, rfl⟩ := checked64_eq_some.mp hnext
                rw [hnext] at hmem
                obtain ⟨hlow, hhigh, hmax, hdvd⟩ := (ih hfits hstep).mp hmem
                refine ⟨by omega, hhigh, hmax, ?_⟩
                have hsum := Int.dvd_add hdvd (Int.dvd_refl intervalNs)
                rwa [show t - (instant + intervalNs) + intervalNs = t - instant by omega] at hsum
        · rintro ⟨hlow, hhigh, hmax, hdvd⟩
          rcases Int.lt_or_eq_of_le hlow with hlt | rfl
          · right
            have hnext := next_le_of_dvd hdvd hlt
            have hfits : Fits64 (instant + intervalNs) := by
              have hmin := hinstant.1
              exact ⟨by omega, by omega⟩
            rw [checked64_eq_some.mpr ⟨hfits, rfl⟩]
            refine (ih hfits hstep).mpr ⟨hnext, hhigh, hmax, ?_⟩
            have hdiff := Int.dvd_sub hdvd (Int.dvd_refl intervalNs)
            rwa [show t - instant - intervalNs = t - (instant + intervalNs) by omega] at hdiff
          · exact .inl rfl
      · rw [if_neg hle]
        simp only [List.not_mem_nil, false_iff]
        omega

/-- The loop visits its instants in increasing order. -/
theorem instantsFrom_increasing (hpos : 0 < intervalNs) {stop : Int} (fuel : Nat)
    (instant : Int) : (instantsFrom intervalNs stop fuel instant).Pairwise (· < ·) ∧
      ∀ t ∈ instantsFrom intervalNs stop fuel instant, instant ≤ t := by
  induction fuel generalizing instant with
  | zero => simp [instantsFrom]
  | succ fuel ih =>
      rw [instantsFrom]
      split
      · cases hnext : checked64 (instant + intervalNs) with
        | none => simp
        | some next =>
            obtain ⟨-, rfl⟩ := checked64_eq_some.mp hnext
            obtain ⟨hincreasing, hlow⟩ := ih (instant + intervalNs)
            refine ⟨List.pairwise_cons.mpr ⟨fun t ht => ?_, hincreasing⟩, fun t ht => ?_⟩
            · have := hlow t ht
              omega
            · rcases List.mem_cons.mp ht with rfl | ht
              · exact Int.le_refl _
              · have := hlow t ht
                omega
      · simp

/-- The samples of a row are the instants it is polled at. -/
theorem mem_rowInstants (hpos : 0 < intervalNs) {row : Row} {t : Int} :
    t ∈ rowInstants intervalNs row ↔ Polls intervalNs row t := by
  unfold rowInstants Polls
  cases hstart : row.startTimestampNs with
  | none => simp
  | some start =>
      cases hstop : row.stopTimestampNs with
      | none => simp
      | some stop =>
          dsimp only
          split
          · next hlt =>
              simp only [List.not_mem_nil, Option.some.injEq, false_iff]
              rintro ⟨start', stop', rfl, rfl, hle, -⟩
              omega
          · next hle =>
              have hfuel : (stop - firstInstant intervalNs start) / intervalNs <
                  (((stop - firstInstant intervalNs start) / intervalNs).toNat + 1 : Nat) := by
                omega
              rw [mem_instantsFrom hpos (firstInstant_fits start) hfuel]
              simp only [Option.some.injEq]
              constructor
              · exact fun h => ⟨start, stop, rfl, rfl, by omega, h⟩
              · rintro ⟨start', stop', rfl, rfl, -, h⟩
                exact h

/-- The instants of a row increase. -/
theorem rowInstants_increasing (hpos : 0 < intervalNs) (row : Row) :
    (rowInstants intervalNs row).Pairwise (· < ·) := by
  unfold rowInstants
  split
  · split
    · exact .nil
    · exact (instantsFrom_increasing hpos _ _).1
  · exact .nil

end Chronicle.Polled
