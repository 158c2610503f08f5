import Chronicle.Polled.Isolation
import Mathlib.Tactic.Linarith
import Mathlib.Tactic.Ring

/-!
# Counting the samples of a run

The counted duration of a run is its number of samples times the interval. It is the time that the
samples stand for exactly when neighbouring samples of one app are a whole interval apart: the
samples of two episodes that touch may be of one instant, and the run then counts it twice.
-/

namespace Chronicle.Polled

open Chronicle.Library.Machine Chronicle.Library.LinkedRuns

/-- The samples of the run stand one interval apart, so that no instant is counted twice. -/
def PolledRun.CountsInstants (intervalNs : Int) (run : PolledRun) : Prop :=
  run.lastInstantNs - run.firstInstantNs = ((run.sampleCount : Int) - 1) * intervalNs

/-- Two rows of one app are polled less than an interval apart, and no row is polled between. -/
structure RepeatedPoll (appRows : List Row) (intervalNs : Int) (x next : PolledSample) :
    Prop where
  sampled : Sampled intervalNs appRows x ∧ Sampled intervalNs appRows next
  ordered : Before x next
  neighbours : ∀ sample, Sampled intervalNs appRows sample →
    ¬ (Before x sample ∧ Before sample next)
  sameApp : identity appRows x.rowIndex = identity appRows next.rowIndex
  close : next.instantNs - x.instantNs < intervalNs

section Runs

variable {appRows : List Row} {intervalNs gapNs : Int}

/-- What the summary of a run keeps of its samples. -/
theorem foldl_extendRun (rest : List PolledSample) (run : PolledRun) :
    (rest.foldl extendRun run).firstInstantNs = run.firstInstantNs ∧
      (rest.foldl extendRun run).sampleCount = run.sampleCount + rest.length := by
  induction rest generalizing run with
  | nil => exact ⟨rfl, rfl⟩
  | cons sample rest ih =>
      obtain ⟨hfirst, hcount⟩ := ih (extendRun run sample)
      refine ⟨hfirst, hcount.trans ?_⟩
      simp only [extendRun, List.length_cons]
      omega

/-- A run whose gaps are at most the interval spans at most as many intervals as it has gaps, and
that many only if every gap is a whole interval. -/
theorem span_foldl_extendRun (rest : List PolledSample) {x : PolledSample} (run : PolledRun)
    (hlast : run.lastInstantNs = x.instantNs)
    (hgaps : (x :: rest).IsChain fun a b => b.instantNs - a.instantNs ≤ intervalNs) :
    (rest.foldl extendRun run).lastInstantNs - x.instantNs ≤ rest.length * intervalNs ∧
      ((rest.foldl extendRun run).lastInstantNs - x.instantNs = rest.length * intervalNs ↔
        (x :: rest).IsChain fun a b => b.instantNs - a.instantNs = intervalNs) := by
  induction rest generalizing x run with
  | nil => simp [hlast]
  | cons y rest ih =>
      rw [List.isChain_cons_cons] at hgaps
      obtain ⟨hle, hiff⟩ := ih (extendRun run y) rfl hgaps.2
      rw [List.isChain_cons_cons, ← hiff, List.foldl_cons, List.length_cons]
      push_cast
      have hsum : ((rest.length : Int) + 1) * intervalNs = rest.length * intervalNs + intervalNs := by
        ring
      have hgap := hgaps.1
      rw [hsum]
      refine ⟨by omega, fun heq => ⟨by omega, by omega⟩, fun ⟨heq, hrest⟩ => by omega⟩

/-- A run counts its instants once if they stand one interval apart. -/
theorem countsInstants_iff {x : PolledSample} {rest : List PolledSample}
    (hgaps : (x :: rest).IsChain fun a b => b.instantNs - a.instantNs ≤ intervalNs) :
    (rest.foldl extendRun (openRun x)).CountsInstants intervalNs ↔
      (x :: rest).IsChain fun a b => b.instantNs - a.instantNs = intervalNs := by
  obtain ⟨hfirst, hcount⟩ := foldl_extendRun rest (openRun x)
  have hspan := (span_foldl_extendRun rest (openRun x) rfl hgaps).2
  rw [← hspan, PolledRun.CountsInstants, hfirst, hcount]
  simp only [openRun]
  rw [show (((1 + rest.length : Nat) : Int) - 1) = rest.length by push_cast; ring]

/-- Samples of one app at most an interval apart are linked, and no others. -/
theorem linked_cerit_iff (hpos : 0 < intervalNs) (hfits : intervalNs ≤ i64Max)
    {x next : PolledSample} (hle : x.instantNs ≤ next.instantNs) :
    (linked appRows .cerit2025SampleCountV1 intervalNs gapNs x next = true →
      next.instantNs - x.instantNs ≤ intervalNs) ∧
    (identity appRows x.rowIndex = identity appRows next.rowIndex →
      next.instantNs - x.instantNs < intervalNs →
        linked appRows .cerit2025SampleCountV1 intervalNs gapNs x next = true) := by
  simp only [linked, breakAtNs, PolledEmulationMethod.usesGapThreshold, Bool.false_eq_true,
    if_false, Bool.and_eq_true, beq_iff_eq, decide_eq_true_eq]
  simp only [saturate64, i64Min, i64Max] at *
  exact ⟨fun h => by omega, fun hsame hlt => ⟨hsame, by omega⟩⟩

/-- Within a run the gaps are at most the interval. -/
theorem gaps_le (appRows : List Row) (gapNs : Int) (hpos : 0 < intervalNs)
    (hfits : intervalNs ≤ i64Max) :
    ∀ run ∈ linkedRuns (linked appRows .cerit2025SampleCountV1 intervalNs gapNs)
      (samplePolledTimeline intervalNs appRows),
      run.IsChain fun a b => b.instantNs - a.instantNs ≤ intervalNs := by
  rw [isChain_linkedRuns]
  have hordered : (samplePolledTimeline intervalNs appRows).IsChain Before :=
    timeline_ordered.isChain
  refine hordered.imp fun {a b} hbefore hlinked => ?_
  have hle : a.instantNs ≤ b.instantNs := by
    unfold Before at hbefore
    omega
  exact (linked_cerit_iff hpos hfits hle).1 hlinked

/-- The runs count their instants once if all linked neighbours are an interval apart. -/
theorem countsInstants_runs_iff (hpos : 0 < intervalNs) (hfits : intervalNs ≤ i64Max) :
    (∀ run ∈ polledRuns appRows .cerit2025SampleCountV1 intervalNs gapNs,
        run.CountsInstants intervalNs) ↔
      (samplePolledTimeline intervalNs appRows).IsChain fun a b =>
        linked appRows .cerit2025SampleCountV1 intervalNs gapNs a b = true →
          b.instantNs - a.instantNs = intervalNs := by
  have hruns := groupPolledRuns_eq appRows .cerit2025SampleCountV1 intervalNs gapNs
    (samplePolledTimeline intervalNs appRows)
  have hunforced : (∀ run ∈ polledRuns appRows .cerit2025SampleCountV1 intervalNs gapNs,
        run.CountsInstants intervalNs) ↔
      ∀ run ∈ (polledRuns appRows .cerit2025SampleCountV1 intervalNs gapNs).map unforced,
        run.CountsInstants intervalNs := by
    rw [List.forall_mem_map]
    rfl
  rw [hunforced, polledRuns, hruns, List.forall_mem_map, ← isChain_linkedRuns]
  have hgaps := gaps_le appRows gapNs hpos hfits
  constructor
  · intro h run hrun
    cases run with
    | nil => exact .nil
    | cons x rest =>
        exact (countsInstants_iff (hgaps _ hrun)).mp
          (h _ (List.mem_filterMap.mpr ⟨_, hrun, rfl⟩))
  · intro h summarized hsummarized
    obtain ⟨run, hrun, hsummary⟩ := List.mem_filterMap.mp hsummarized
    cases run with
    | nil => cases hsummary
    | cons x rest =>
        obtain rfl := Option.some.inj hsummary
        exact (countsInstants_iff (hgaps _ hrun)).mpr (h _ hrun)

/-- An app that is polled twice within an interval has a run that counts more than it spans. -/
theorem not_countsInstants_of_repeatedPoll (hpos : 0 < intervalNs) (hfits : intervalNs ≤ i64Max)
    {x next : PolledSample} (h : RepeatedPoll appRows intervalNs x next) :
    ¬ ∀ run ∈ polledRuns appRows .cerit2025SampleCountV1 intervalNs gapNs,
      run.CountsInstants intervalNs := by
  rw [countsInstants_runs_iff hpos hfits,
    isChain_iff_of_pairwise before_irrefl before_trans timeline_ordered]
  intro hcounts
  have hle : x.instantNs ≤ next.instantNs := by
    have hbefore := h.ordered
    unfold Before at hbefore
    omega
  have hgap := hcounts x (mem_timeline.mpr h.sampled.1) next (mem_timeline.mpr h.sampled.2)
    h.ordered (fun sample hsample => h.neighbours sample (mem_timeline.mp hsample))
    ((linked_cerit_iff hpos hfits hle).2 h.sameApp h.close)
  have hclose := h.close
  omega

end Runs

/-- Under the counting method every run counts each of its instants once exactly when no app is
polled twice within an interval. -/
theorem polled_runs_count_instants_iff (appRows : List Row) (intervalNs gapNs : Int)
    (hpos : 0 < intervalNs) (hfits : intervalNs ≤ i64Max) :
    (∀ run ∈ polledRuns appRows .cerit2025SampleCountV1 intervalNs gapNs,
        run.CountsInstants intervalNs) ↔
      ¬ ∃ x next, RepeatedPoll appRows intervalNs x next := by
  constructor
  · rintro h ⟨x, next, hrepeated⟩
    exact not_countsInstants_of_repeatedPoll hpos hfits hrepeated h
  · rw [countsInstants_runs_iff hpos hfits,
      isChain_iff_of_pairwise before_irrefl before_trans timeline_ordered]
    intro h x hx next hnext hbefore hnone hlinked
    have hle : x.instantNs ≤ next.instantNs := by
      unfold Before at hbefore
      omega
    have hgap := (linked_cerit_iff hpos hfits hle).1 hlinked
    by_contra hne
    refine h ⟨x, next, ⟨mem_timeline.mp hx, mem_timeline.mp hnext⟩, hbefore,
      fun sample hsample => hnone sample (mem_timeline.mpr hsample), ?_, by omega⟩
    rw [linked, Bool.and_eq_true, beq_iff_eq] at hlinked
    exact hlinked.1

/-- One app in two episodes that touch. -/
def touchingEpisodes : List Row :=
  [{ participantId := "p", appPackageName := "a", startTimestampNs := some 0,
     stopTimestampNs := some 10 },
   { participantId := "p", appPackageName := "a", startTimestampNs := some 10,
     stopTimestampNs := some 20 }]

theorem polled_runs_count_instants_touching :
    (∀ run ∈ polledRuns touchingEpisodes .cerit2025SampleCountV1 10 0, run.CountsInstants 10) ↔
      ¬ ∃ x next, RepeatedPoll touchingEpisodes 10 x next :=
  polled_runs_count_instants_iff touchingEpisodes 10 0 (by decide) (by decide)

/-- Polled every ten nanoseconds, both episodes have a sample of the instant at which they touch. -/
theorem touchingEpisodes_count_twice :
    ¬ ∀ run ∈ polledRuns touchingEpisodes .cerit2025SampleCountV1 10 0,
      run.CountsInstants 10 := by
  have hrepeated : RepeatedPoll touchingEpisodes 10 ⟨0, 10⟩ ⟨1, 10⟩ := {
    sampled := ⟨⟨by decide, _, rfl, 0, 10, rfl, rfl, by decide⟩,
      ⟨by decide, _, rfl, 10, 20, rfl, rfl, by decide⟩⟩
    ordered := .inr ⟨rfl, by decide⟩
    neighbours := by
      rintro sample - ⟨hafter, hbefore⟩
      unfold Before at hafter hbefore
      simp only at hafter hbefore
      omega
    sameApp := rfl
    close := by decide }
  exact not_countsInstants_of_repeatedPoll (by decide) (by decide) hrepeated

end Chronicle.Polled
