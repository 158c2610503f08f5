import Mathlib.Data.List.GetD
import Chronicle.Credit.Substrate
import Chronicle.Library.OneOpen
import Chronicle.Pipeline.Reconstruction

/-!
# Matchers with one open use

Two rules carry at most one open use through the stream. Under the interruption-aware rule it ends
at its own pause, at a screen-off, at the next opener, or at the last event before ten minutes of
silence. Under the lock-tolerant rule a screen-off is held back until it is known whether the screen
stayed off for thirty seconds.
-/

namespace Chronicle.Pipeline

open Chronicle.Credit Chronicle.Library Chronicle.Library.Machine Chronicle.Library.OneOpen
  Chronicle.Matcher

/-- `DRAXLER_INACTIVITY_NS` -/
def draxlerInactivityNs : Int := 600000000000

/-- `MORRISON_LOCK_TIMEOUT_NS` -/
def morrisonLockTimeoutNs : Int := 30000000000

/-- The `close` both rules share. -/
def closeUse (output : MatcherOutput) (start stop : Nat) (reason : EpisodeCloseReason)
    (instant : Option Int) : MatcherOutput :=
  { output with
    stopStartIndices := output.stopStartIndices ++ [start]
    stopEventIndices := output.stopEventIndices ++ [stop]
    stopReasons := output.stopReasons ++ [reason]
    stopTimestampsNs := output.stopTimestampsNs ++ [instant]
    startTimestampsNs := output.startTimestampsNs ++ [none] }

/-- The open use, if there is one, is closed at the row. -/
def closeOpen (output : MatcherOutput) (openUse : Option (Nat × String)) (stop : Nat)
    (reason : EpisodeCloseReason) : MatcherOutput :=
  match openUse with
  | some (start, _) => closeUse output start stop reason none
  | none => output

/-- An opener hands over from the open use and opens its own. -/
def handOver (output : MatcherOutput) (openUse : Option (Nat × String)) (index : Nat) :
    MatcherOutput :=
  let output := closeOpen output openUse index .foregroundHandover
  { output with startIndices := output.startIndices ++ [index] }

/-- The open use is reported as never ended. -/
def reportOpen (output : MatcherOutput) (openUse : Option (Nat × String)) : MatcherOutput :=
  match openUse with
  | some (start, _) =>
      { output with
        missingIndices := output.missingIndices ++ [start]
        missingReasons := output.missingReasons ++ [.unobserved] }
  | none => output

/-- The open use is of the package. -/
def isOpenPackage (openUse : Option (Nat × String)) (package : String) : Bool :=
  openUse.any fun use => use.2 == package

section Matchers

variable (rows : List Row) (eligibleOpener : List Bool)

/-- `eligible_opener[index]` -/
def opensAt (index : Nat) : Bool := eligibleOpener.getD index false

/-- The state of `draxler_episodes`. -/
structure DraxlerState where
  output : MatcherOutput
  openUse : Option (Nat × String)
  lastEventNs : Option Int

/-- A silent stretch closes the open use at the last event seen. -/
def draxlerInactivity (st : DraxlerState) (index : Nat) : DraxlerState :=
  match st.openUse, st.lastEventNs with
  | some (start, _), some previous =>
      if draxlerInactivityNs < wrap64 ((rowAt rows index).eventTimestampNs - previous) then
        { st with
          output := closeUse st.output start index .draxlerInactivityTimeout (some previous)
          openUse := none }
      else st
  | _, _ => st

/-- What the row itself opens or closes. -/
def draxlerRow (st : DraxlerState) (index : Nat) : DraxlerState :=
  let row := rowAt rows index
  if opensAt eligibleOpener index then
    { st with
      output := handOver st.output st.openUse index
      openUse := some (index, row.appPackageName) }
  else if row.interactionType = activityPaused then
    if isOpenPackage st.openUse row.appPackageName then
      { st with
        output := closeOpen st.output st.openUse index .samePackageBackgrounded
        openUse := none }
    else st
  else if row.interactionType ∈ screenStopEvents then
    { st with
      output := closeOpen st.output st.openUse index .screenNonInteractive
      openUse := none }
  else st

/-- One pass of the loop. -/
def draxlerStep (st : DraxlerState) (index : Nat) : DraxlerState :=
  { draxlerRow rows eligibleOpener (draxlerInactivity rows st index) index with
    lastEventNs := some (rowAt rows index).eventTimestampNs }

/-- `draxler_episodes` -/
def draxlerEpisodes : MatcherOutput :=
  let st := (List.range rows.length).foldl (draxlerStep rows eligibleOpener)
    { output := {}, openUse := none, lastEventNs := none }
  reportOpen st.output st.openUse

/-- The state of `morrison_episodes`; a pending lock is the screen-off's row and its instant. -/
structure MorrisonState where
  output : MatcherOutput
  openUse : Option (Nat × String)
  pendingLock : Option (Nat × Int)

/-- The pending lock ends the open use. -/
def morrisonLock (st : MorrisonState) : MorrisonState :=
  match st.openUse, st.pendingLock with
  | some (start, _), some (lockIndex, lockNs) =>
      { output := closeUse st.output start lockIndex .screenLockedPastTimeout (some lockNs)
        openUse := none
        pendingLock := none }
  | _, _ => st

/-- A held lock is resolved: it counted if the timeout has passed, and did not if the screen is back
on before that. -/
def morrisonResolve (st : MorrisonState) (index : Nat) : MorrisonState :=
  let row := rowAt rows index
  match st.openUse, st.pendingLock with
  | some _, some (_, lockNs) =>
      if morrisonLockTimeoutNs ≤ wrap64 (row.eventTimestampNs - lockNs) then morrisonLock st
      else if row.interactionType ∈ screenStartEvents then { st with pendingLock := none }
      else st
  | _, _ => st

/-- What the row itself opens, closes or holds. -/
def morrisonRow (st : MorrisonState) (index : Nat) : MorrisonState :=
  let row := rowAt rows index
  if opensAt eligibleOpener index then
    { output := handOver st.output st.openUse index
      openUse := some (index, row.appPackageName)
      pendingLock := none }
  else if row.interactionType = activityPaused then
    if isOpenPackage st.openUse row.appPackageName then
      { output := closeOpen st.output st.openUse index .samePackageBackgrounded
        openUse := none
        pendingLock := none }
    else st
  else if row.interactionType ∈ screenStopEvents ∧ st.openUse.isSome ∧ st.pendingLock.isNone then
    { st with pendingLock := some (index, row.eventTimestampNs) }
  else st

/-- One pass of the loop. -/
def morrisonStep (st : MorrisonState) (index : Nat) : MorrisonState :=
  morrisonRow rows eligibleOpener (morrisonResolve rows st index) index

/-- `morrison_episodes`; a lock still pending at the end of the stream counted. -/
def morrisonEpisodes : MatcherOutput :=
  let st := morrisonLock ((List.range rows.length).foldl (morrisonStep rows eligibleOpener)
    { output := {}, openUse := none, pendingLock := none })
  reportOpen st.output st.openUse

end Matchers

/-! ## Closed uses -/

/-- One closed use. -/
structure EpisodeClose where
  start : Nat
  stop : Nat
  reason : EpisodeCloseReason
  instant : Option Int
deriving DecidableEq, Repr

/-- The output that lists these starts, closes and starts without an end. -/
def record (starts : List Nat) (closes : List EpisodeClose) (missing : List Nat) :
    MatcherOutput where
  startIndices := starts
  stopStartIndices := closes.map EpisodeClose.start
  stopEventIndices := closes.map EpisodeClose.stop
  missingIndices := missing
  stopReasons := closes.map EpisodeClose.reason
  missingReasons := missing.map fun _ => .unobserved
  stopTimestampsNs := closes.map EpisodeClose.instant
  startTimestampsNs := closes.map fun _ => none

def timeAt (rows : List Row) (index : Nat) : Int := (rowAt rows index).eventTimestampNs

/-- When a closed use ended: at the instant it carries, or else at its closing row. -/
def endedAt (rows : List Row) (close : EpisodeClose) : Int :=
  close.instant.getD (timeAt rows close.stop)

/-- The openers among the first rows. -/
def openers (eligibleOpener : List Bool) (n : Nat) : List Nat :=
  (List.range n).filter (opensAt eligibleOpener)

/-- The closed uses follow one another, each runs forward, and only the last start may be without an
end. -/
structure EpisodesInOrder (rows : List Row) (starts : List Nat) (closes : List EpisodeClose)
    (missing : List Nat) : Prop where
  increasing : starts.Pairwise (· < ·)
  accounted : starts = closes.map EpisodeClose.start ++ missing
  single : missing.length ≤ 1
  forward : ∀ c ∈ closes, timeAt rows c.start ≤ endedAt rows c
  apart : closes.Pairwise fun c d => endedAt rows c ≤ timeAt rows d.start
  before : ∀ c ∈ closes, ∀ s ∈ missing, endedAt rows c ≤ timeAt rows s

section Progress

variable {rows : List Row} {eligibleOpener : List Bool} {n : Nat} {output : MatcherOutput}
  {openUse : Option (Nat × String)} {closes : List EpisodeClose} {starts missing : List Nat}

theorem closeUse_record (c : EpisodeClose) :
    closeUse (record starts closes []) c.start c.stop c.reason c.instant =
      record starts (closes ++ [c]) [] := by
  simp [closeUse, record]

/-- The output determines the closes it lists. -/
theorem closes_eq_of_record_eq {starts' missing' : List Nat} {closes' : List EpisodeClose}
    (h : record starts closes missing = record starts' closes' missing') : closes = closes' := by
  have hstart := congrArg MatcherOutput.stopStartIndices h
  have hstop := congrArg MatcherOutput.stopEventIndices h
  have hreason := congrArg MatcherOutput.stopReasons h
  have hinstant := congrArg MatcherOutput.stopTimestampsNs h
  dsimp only [record] at hstart hstop hreason hinstant
  clear h
  induction closes generalizing closes' with
  | nil =>
      rw [List.map_nil, eq_comm, List.map_eq_nil_iff] at hstart
      exact hstart.symm
  | cons c closes ih =>
      cases closes' with
      | nil => simp at hstart
      | cons d closes' =>
          simp only [List.map_cons, List.cons.injEq] at hstart hstop hreason hinstant
          have hrest := ih hstart.2 hstop.2 hreason.2 hinstant.2
          obtain ⟨a, b, r, t⟩ := c
          obtain ⟨a', b', r', t'⟩ := d
          simp_all

theorem openers_succ_of_opens (h : opensAt eligibleOpener n = true) :
    openers eligibleOpener (n + 1) = openers eligibleOpener n ++ [n] := by
  simp [openers, List.range_succ, h]

theorem openers_succ_of_not (h : ¬ opensAt eligibleOpener n = true) :
    openers eligibleOpener (n + 1) = openers eligibleOpener n := by
  simp [openers, List.range_succ, h]

/-- Where either matcher stands before it opens or closes anything at row `n`. -/
structure Progress (rows : List Row) (eligibleOpener : List Bool) (n : Nat)
    (output : MatcherOutput) (openUse : Option (Nat × String)) (closes : List EpisodeClose) :
    Prop where
  output_eq : output = record (openers eligibleOpener n) closes []
  order : InOrder (timeAt rows) rows.length EpisodeClose.start (endedAt rows) n
    (openers eligibleOpener n) closes (openUse.map Prod.fst)
  package : ∀ use ∈ openUse, use.2 = (rowAt rows use.1).appPackageName

theorem progress_start : Progress rows eligibleOpener 0 {} none [] where
  output_eq := rfl
  order := inOrder_nil
  package := by simp

theorem Progress.close {use : Nat × String}
    (h : Progress rows eligibleOpener n output (some use) closes) (c : EpisodeClose)
    (hstart : c.start = use.1) (hforward : timeAt rows use.1 ≤ endedAt rows c)
    (hpast : ∀ j, n ≤ j → j < rows.length → endedAt rows c ≤ timeAt rows j) :
    Progress rows eligibleOpener n (closeUse output c.start c.stop c.reason c.instant) none
      (closes ++ [c]) where
  output_eq := h.output_eq ▸ closeUse_record c
  order := h.order.close c hstart hforward hpast
  package := by simp

theorem Progress.pass (h : Progress rows eligibleOpener n output openUse closes)
    (hnot : ¬ opensAt eligibleOpener n = true) :
    Progress rows eligibleOpener (n + 1) output openUse closes where
  output_eq := by rw [openers_succ_of_not hnot, h.output_eq]
  order := by
    rw [openers_succ_of_not hnot]
    exact h.order.pass
  package := h.package

theorem Progress.start (h : Progress rows eligibleOpener n output none closes)
    (hopens : opensAt eligibleOpener n = true) (hn : n < rows.length) :
    Progress rows eligibleOpener (n + 1)
      { output with startIndices := output.startIndices ++ [n] }
      (some (n, (rowAt rows n).appPackageName)) closes where
  output_eq := by
    rw [openers_succ_of_opens hopens, h.output_eq]
    rfl
  order := by
    rw [openers_succ_of_opens hopens]
    exact h.order.start hn
  package := by simp

section Sorted

variable (hsorted : rows.Pairwise fun a b => a.eventTimestampNs ≤ b.eventTimestampNs)

include hsorted

theorem timeAt_mono {i j : Nat} (hij : i ≤ j) (hj : j < rows.length) :
    timeAt rows i ≤ timeAt rows j := by
  rcases hij.eq_or_lt with rfl | hlt
  · exact le_rfl
  · have hi := hlt.trans hj
    have hpair := List.pairwise_iff_getElem.mp hsorted i j hi hj hlt
    simpa [timeAt, rowAt, List.getD_eq_getElem, hi, hj] using hpair

/-- The row closes the open use. -/
theorem Progress.closesAt (h : Progress rows eligibleOpener n output openUse closes)
    (hn : n < rows.length) (reason : EpisodeCloseReason) :
    Progress rows eligibleOpener n (closeOpen output openUse n reason) none
      (closes ++ openUse.toList.map fun use => ⟨use.1, n, reason, none⟩) := by
  cases openUse with
  | none => simpa [closeOpen] using h
  | some use =>
      have hstart : use.1 < n := h.order.current_lt
      exact h.close ⟨use.1, n, reason, none⟩ rfl (timeAt_mono hsorted hstart.le hn)
        fun j hj hlen => timeAt_mono hsorted hj hlen

theorem Progress.handsOver (h : Progress rows eligibleOpener n output openUse closes)
    (hopens : opensAt eligibleOpener n = true) (hn : n < rows.length) :
    Progress rows eligibleOpener (n + 1) (handOver output openUse n)
      (some (n, (rowAt rows n).appPackageName))
      (closes ++ openUse.toList.map fun use => ⟨use.1, n, .foregroundHandover, none⟩) :=
  (h.closesAt hsorted hn .foregroundHandover).start hopens hn

end Sorted

/-- At the end of the stream the open use is the one without an end. -/
theorem Progress.report (h : Progress rows eligibleOpener n output openUse closes) :
    reportOpen output openUse =
        record (openers eligibleOpener n) closes (openUse.toList.map Prod.fst) ∧
      EpisodesInOrder rows (openers eligibleOpener n) closes (openUse.toList.map Prod.fst) := by
  have horder := h.order
  constructor
  · rw [h.output_eq]
    cases openUse <;> rfl
  · refine ⟨horder.increasing, ?_, ?_, horder.forward, horder.apart, ?_⟩
    · cases openUse <;> exact horder.accounted
    · cases openUse <;> simp
    · intro c hc s hs
      refine horder.before c hc s ?_
      cases openUse <;> simp_all

end Progress

/-! ## The interruption-aware rule -/

section Draxler

variable {rows : List Row} {eligibleOpener : List Bool} {n : Nat} {st : DraxlerState}
  {closes : List EpisodeClose}

/-- No two neighbouring events from the row on, before row `m`, are more than ten minutes apart. -/
def QuietFrom (rows : List Row) (s m : Nat) : Prop :=
  ∀ i, s ≤ i → i + 1 < m → timeAt rows (i + 1) - timeAt rows i ≤ draxlerInactivityNs

/-- No two neighbouring events inside the closed use are more than ten minutes apart. -/
def Calm (rows : List Row) (c : EpisodeClose) : Prop :=
  ∀ i, i + 1 < rows.length → timeAt rows c.start ≤ timeAt rows i →
    timeAt rows (i + 1) ≤ endedAt rows c →
      timeAt rows (i + 1) - timeAt rows i ≤ draxlerInactivityNs

/-- Elapsed times between two rows are representable. -/
def ElapsedFits (rows : List Row) : Prop :=
  ∀ i j, i ≤ j → j < rows.length → Fits64 (timeAt rows j - timeAt rows i)

/-- Before row `n` is looked at. -/
structure DraxlerInv (rows : List Row) (eligibleOpener : List Bool) (n : Nat) (st : DraxlerState)
    (closes : List EpisodeClose) : Prop where
  progress : Progress rows eligibleOpener n st.output st.openUse closes
  last : st.lastEventNs = if n = 0 then none else some (timeAt rows (n - 1))
  quiet : ∀ use ∈ st.openUse, QuietFrom rows use.1 n
  calm : ∀ c ∈ closes, Calm rows c

/-- Once the silence before row `n` is dealt with. -/
structure DraxlerReady (rows : List Row) (eligibleOpener : List Bool) (n : Nat)
    (st : DraxlerState) (closes : List EpisodeClose) : Prop where
  progress : Progress rows eligibleOpener n st.output st.openUse closes
  quiet : ∀ use ∈ st.openUse, QuietFrom rows use.1 (n + 1)
  calm : ∀ c ∈ closes, Calm rows c

variable (hsorted : rows.Pairwise fun a b => a.eventTimestampNs ≤ b.eventTimestampNs)

include hsorted

/-- A use that ends where the events up to then are close together is calm: outside of these rows
the events of its span are at one instant. -/
theorem calm_of_quietFrom {c : EpisodeClose} {m k : Nat} (hquiet : QuietFrom rows c.start m)
    (hm : m ≤ rows.length) (hk : k < m) (hstart : c.start ≤ k)
    (hended : endedAt rows c ≤ timeAt rows k) : Calm rows c := by
  intro i hi hafter hinside
  have hpositive : (0 : Int) ≤ draxlerInactivityNs := by decide
  rcases lt_or_ge i c.start with hearly | hfrom
  · have hmono := timeAt_mono hsorted (show i + 1 ≤ c.start from hearly) (by omega)
    omega
  · rcases lt_or_ge (i + 1) m with hrow | hlate
    · exact hquiet i hfrom hrow
    · have hmono := timeAt_mono hsorted (show k ≤ i by omega) (by omega)
      omega

/-- Silence before the row closes the open use where the silence began. -/
theorem draxlerInactivity_ready (hfits : ElapsedFits rows) (hn : n < rows.length)
    (h : DraxlerInv rows eligibleOpener n st closes) :
    ∃ closes, DraxlerReady rows eligibleOpener n (draxlerInactivity rows st n) closes := by
  obtain ⟨output, openUse, lastEventNs⟩ := st
  obtain ⟨hprogress, hlast, hquiet, hcalm⟩ := h
  dsimp only at hprogress hlast hquiet
  cases openUse with
  | none => exact ⟨closes, hprogress, by simp [draxlerInactivity], hcalm⟩
  | some use =>
      have hstart : use.1 < n := hprogress.order.current_lt
      rw [if_neg (by omega)] at hlast
      subst hlast
      have hprevious := timeAt_mono hsorted (Nat.sub_le n 1) hn
      have hgap := wrap64_of_fits (hfits (n - 1) n (Nat.sub_le n 1) hn)
      unfold draxlerInactivity
      dsimp only
      split
      · let c : EpisodeClose :=
          ⟨use.1, n, .draxlerInactivityTimeout, some (timeAt rows (n - 1))⟩
        have hforward := timeAt_mono hsorted (show use.1 ≤ n - 1 by omega) (by omega)
        refine ⟨closes ++ [c], hprogress.close c rfl hforward fun j hj hlen => ?_, by simp, ?_⟩
        · exact hprevious.trans (timeAt_mono hsorted hj hlen)
        · refine List.forall_mem_append.mpr ⟨hcalm, List.forall_mem_singleton.mpr ?_⟩
          exact calm_of_quietFrom hsorted (hquiet use rfl) hn.le (Nat.sub_lt (by omega) one_pos)
            (show use.1 ≤ n - 1 by omega) le_rfl
      · case isFalse hshort =>
          refine ⟨closes, hprogress, fun other hother i hi hrow => ?_, hcalm⟩
          rcases Nat.lt_succ_iff_lt_or_eq.mp hrow with hearlier | hnow
          · exact hquiet other hother i hi hearlier
          · obtain rfl : i = n - 1 := by omega
            rw [hnow]
            change ¬ draxlerInactivityNs < wrap64 (timeAt rows n - timeAt rows (n - 1)) at hshort
            rw [hgap] at hshort
            exact not_lt.mp hshort

/-- A close at the row itself is calm. -/
theorem DraxlerReady.calm_close (h : DraxlerReady rows eligibleOpener n st closes)
    (hn : n < rows.length) (reason : EpisodeCloseReason) :
    ∀ c ∈ closes ++ st.openUse.toList.map fun use => ⟨use.1, n, reason, none⟩, Calm rows c := by
  refine List.forall_mem_append.mpr ⟨h.calm, fun c hc => ?_⟩
  obtain ⟨use, huse, rfl⟩ := List.mem_map.mp hc
  rw [Option.mem_toList] at huse
  have hprogress := h.progress
  rw [Option.mem_def.mp huse] at hprogress
  have hstart : use.1 < n := hprogress.order.current_lt
  exact calm_of_quietFrom hsorted (h.quiet use huse) hn (Nat.lt_succ_self n) hstart.le le_rfl

theorem draxlerRow_ready (hn : n < rows.length)
    (h : DraxlerReady rows eligibleOpener n st closes) :
    ∃ closes, Progress rows eligibleOpener (n + 1) (draxlerRow rows eligibleOpener st n).output
        (draxlerRow rows eligibleOpener st n).openUse closes ∧
      (∀ use ∈ (draxlerRow rows eligibleOpener st n).openUse, QuietFrom rows use.1 (n + 1)) ∧
      ∀ c ∈ closes, Calm rows c := by
  have hfresh : QuietFrom rows n (n + 1) := fun i hi hrow => by omega
  unfold draxlerRow
  dsimp only
  split
  · case isTrue hopens =>
      refine ⟨_, h.progress.handsOver hsorted hopens hn, fun use huse => ?_,
        h.calm_close hsorted hn .foregroundHandover⟩
      obtain rfl := Option.mem_some.mp huse
      exact hfresh
  · case isFalse hnot =>
      have hclose : ∀ reason, ∃ closes,
          Progress rows eligibleOpener (n + 1) (closeOpen st.output st.openUse n reason) none
            closes ∧ ∀ c ∈ closes, Calm rows c := fun reason =>
        ⟨_, (h.progress.closesAt hsorted hn reason).pass hnot, h.calm_close hsorted hn reason⟩
      split
      · split
        · obtain ⟨closes, hprogress, hcalm⟩ := hclose .samePackageBackgrounded
          exact ⟨closes, hprogress, by simp, hcalm⟩
        · exact ⟨closes, h.progress.pass hnot, h.quiet, h.calm⟩
      · split
        · obtain ⟨closes, hprogress, hcalm⟩ := hclose .screenNonInteractive
          exact ⟨closes, hprogress, by simp, hcalm⟩
        · exact ⟨closes, h.progress.pass hnot, h.quiet, h.calm⟩

theorem draxlerStep_inv (hfits : ElapsedFits rows) (hn : n < rows.length)
    (h : DraxlerInv rows eligibleOpener n st closes) :
    ∃ closes, DraxlerInv rows eligibleOpener (n + 1) (draxlerStep rows eligibleOpener st n)
      closes := by
  obtain ⟨_, hready⟩ := draxlerInactivity_ready hsorted hfits hn h
  obtain ⟨closes, hprogress, hquiet, hcalm⟩ := draxlerRow_ready hsorted hn hready
  exact ⟨closes, hprogress, rfl, hquiet, hcalm⟩

/-- The interruption-aware matcher. -/
theorem draxler_episodes_in_order (hfits : ElapsedFits rows) :
    ∃ closes missing,
      draxlerEpisodes rows eligibleOpener =
          record (openers eligibleOpener rows.length) closes missing ∧
        EpisodesInOrder rows (openers eligibleOpener rows.length) closes missing ∧
        ∀ c ∈ closes, Calm rows c := by
  have hstart : ∃ closes, DraxlerInv rows eligibleOpener 0
      { output := {}, openUse := none, lastEventNs := none } closes :=
    ⟨[], progress_start, rfl, by simp, by simp⟩
  have hrun := Loop.foldl_range_induction (P := fun n st =>
    ∃ closes, DraxlerInv rows eligibleOpener n st closes) hstart
    fun n st hn ⟨closes, h⟩ => draxlerStep_inv hsorted hfits hn h
  obtain ⟨closes, h⟩ := hrun
  exact ⟨closes, _, h.progress.report.1, h.progress.report.2, h.calm⟩

end Draxler

/-! ## The lock-tolerant rule -/

section Morrison

variable {rows : List Row} {eligibleOpener : List Bool} {n s : Nat} {st : MorrisonState}
  {closes : List EpisodeClose}

/-- The row turns the screen on. -/
def TurnsOn (rows : List Row) (j : Nat) : Prop :=
  (rowAt rows j).interactionType ∈ screenStartEvents

/-- The row turns the screen off, and opens nothing. -/
def TurnsOff (rows : List Row) (eligibleOpener : List Bool) (j : Nat) : Prop :=
  ¬ opensAt eligibleOpener j = true ∧ (rowAt rows j).interactionType ∈ screenStopEvents

/-- The row is an opener, or a pause of the use's own package. -/
def EndsUse (rows : List Row) (eligibleOpener : List Bool) (s j : Nat) : Prop :=
  opensAt eligibleOpener j = true ∨ (rowAt rows j).interactionType = activityPaused ∧
    (rowAt rows s).appPackageName = (rowAt rows j).appPackageName

/-- Within thirty seconds of the screen-off the screen is back on or the use has ended. -/
def Resolves (rows : List Row) (eligibleOpener : List Bool) (s lock j : Nat) : Prop :=
  lock < j ∧ j < rows.length ∧ timeAt rows j - timeAt rows lock < morrisonLockTimeoutNs ∧
    (TurnsOn rows j ∨ EndsUse rows eligibleOpener s j)

/-- A screen-off that nothing resolves. -/
def Holds (rows : List Row) (eligibleOpener : List Bool) (s lock : Nat) : Prop :=
  TurnsOff rows eligibleOpener lock ∧ ∀ j, ¬ Resolves rows eligibleOpener s lock j

/-- The first screen-off within the use that nothing resolves. -/
structure Locks (rows : List Row) (eligibleOpener : List Bool) (s lock : Nat) : Prop where
  after : s < lock
  inside : lock < rows.length
  holds : Holds rows eligibleOpener s lock
  unbroken : ∀ j, s < j → j < lock → ¬ EndsUse rows eligibleOpener s j
  first : ∀ other, s < other → other < lock → ¬ Holds rows eligibleOpener s other

/-- A close is at the screen-off that locks the use, or else at the row that ends it. -/
def Settled (rows : List Row) (eligibleOpener : List Bool) (c : EpisodeClose) : Prop :=
  (c.reason = .screenLockedPastTimeout ∧ Locks rows eligibleOpener c.start c.stop ∧
      c.instant = some (timeAt rows c.stop)) ∨
    (c.reason ≠ .screenLockedPastTimeout ∧ EndsUse rows eligibleOpener c.start c.stop ∧
      c.instant = none ∧ ∀ lock, ¬ Locks rows eligibleOpener c.start lock)

/-- No screen-off of the use before row `n` holds. -/
def Unlocked (rows : List Row) (eligibleOpener : List Bool) (s n : Nat) : Prop :=
  ∀ lock, s < lock → lock < n → ¬ Holds rows eligibleOpener s lock

/-- The screen-off is the first of its run, and nothing has resolved it before row `n`. -/
structure Pending (rows : List Row) (eligibleOpener : List Bool) (s n : Nat) (lock : Nat × Int) :
    Prop where
  instant : lock.2 = timeAt rows lock.1
  after : s < lock.1
  seen : lock.1 < n
  off : TurnsOff rows eligibleOpener lock.1
  first : Unlocked rows eligibleOpener s lock.1
  dark : ∀ j, lock.1 < j → j < n → ¬ TurnsOn rows j

/-- What is known of the open use before row `n` is looked at. -/
structure Watched (rows : List Row) (eligibleOpener : List Bool) (n s : Nat)
    (pendingLock : Option (Nat × Int)) : Prop where
  unbroken : ∀ j, s < j → j < n → ¬ EndsUse rows eligibleOpener s j
  unlocked : pendingLock = none → Unlocked rows eligibleOpener s n
  pending : ∀ lock ∈ pendingLock, Pending rows eligibleOpener s n lock

/-- Before row `n` is looked at. -/
structure MorrisonInv (rows : List Row) (eligibleOpener : List Bool) (n : Nat) (st : MorrisonState)
    (closes : List EpisodeClose) : Prop where
  progress : Progress rows eligibleOpener n st.output st.openUse closes
  watched : ∀ use ∈ st.openUse, Watched rows eligibleOpener n use.1 st.pendingLock
  settled : ∀ c ∈ closes, Settled rows eligibleOpener c

/-- Once row `n` has resolved the lock that was pending. -/
structure MorrisonReady (rows : List Row) (eligibleOpener : List Bool) (n : Nat)
    (st : MorrisonState) (closes : List EpisodeClose) : Prop
    extends MorrisonInv rows eligibleOpener n st closes where
  recent : ∀ lock ∈ st.pendingLock, st.openUse.isSome →
    timeAt rows n - timeAt rows lock.1 < morrisonLockTimeoutNs ∧ ¬ TurnsOn rows n

/-- A pending screen-off holds if the next thirty seconds are over or the stream is. -/
theorem Pending.locks {lock : Nat × Int} (h : Pending rows eligibleOpener s n lock)
    (hunbroken : ∀ j, s < j → j < n → ¬ EndsUse rows eligibleOpener s j) (hn : n ≤ rows.length)
    (hover : ∀ j, n ≤ j → j < rows.length →
      morrisonLockTimeoutNs ≤ timeAt rows j - timeAt rows lock.1) :
    Locks rows eligibleOpener s lock.1 where
  after := h.after
  inside := h.seen.trans_le hn
  holds := by
    refine ⟨h.off, fun j ⟨hlater, hlen, hsoon, hends⟩ => ?_⟩
    rcases lt_or_ge j n with hseen | hcoming
    · rcases hends with hon | hends
      · exact h.dark j hlater hseen hon
      · exact hunbroken j (h.after.trans hlater) hseen hends
    · exact absurd hsoon (not_lt.mpr (hover j hcoming hlen))
  unbroken := fun j hj hlock => hunbroken j hj (hlock.trans h.seen)
  first := h.first

theorem Unlocked.succ (h : Unlocked rows eligibleOpener s n)
    (hnot : ¬ Holds rows eligibleOpener s n) : Unlocked rows eligibleOpener s (n + 1) := by
  intro lock hafter hbefore
  rcases Nat.lt_succ_iff_lt_or_eq.mp hbefore with hseen | rfl
  · exact h lock hafter hseen
  · exact hnot

theorem Pending.succ {lock : Nat × Int} (h : Pending rows eligibleOpener s n lock)
    (hdark : ¬ TurnsOn rows n) : Pending rows eligibleOpener s (n + 1) lock :=
  { h with
    seen := Nat.lt_succ_of_lt h.seen
    dark := fun j hj hrow => by
      rcases Nat.lt_succ_iff_lt_or_eq.mp hrow with hseen | rfl
      · exact h.dark j hj hseen
      · exact hdark }

theorem unbroken_succ (h : ∀ j, s < j → j < n → ¬ EndsUse rows eligibleOpener s j)
    (hnot : ¬ EndsUse rows eligibleOpener s n) :
    ∀ j, s < j → j < n + 1 → ¬ EndsUse rows eligibleOpener s j := by
  intro j hj hrow
  rcases Nat.lt_succ_iff_lt_or_eq.mp hrow with hseen | rfl
  · exact h j hj hseen
  · exact hnot

/-- A row that neither ends the use nor bears on its locks is passed. -/
theorem MorrisonReady.pass (h : MorrisonReady rows eligibleOpener n st closes)
    (hopener : ¬ opensAt eligibleOpener n = true)
    (hends : ∀ use ∈ st.openUse, ¬ EndsUse rows eligibleOpener use.1 n)
    (hoff : st.openUse.isSome = true → st.pendingLock = none →
      ¬ TurnsOff rows eligibleOpener n) :
    MorrisonInv rows eligibleOpener (n + 1) st closes where
  progress := h.progress.pass hopener
  watched := fun use huse => by
    have hwatch := h.watched use huse
    have hsome := Option.isSome_of_mem huse
    exact ⟨unbroken_succ hwatch.unbroken (hends use huse),
      fun hnone => (hwatch.unlocked hnone).succ fun hholds => hoff hsome hnone hholds.1,
      fun lock hlock => (hwatch.pending lock hlock).succ (h.recent lock hlock hsome).2⟩
  settled := h.settled

section Sorted

variable (hsorted : rows.Pairwise fun a b => a.eventTimestampNs ≤ b.eventTimestampNs)

include hsorted

/-- A row that turns the screen on or ends the use resolves every screen-off of the last thirty
seconds. -/
theorem Pending.unlocked {lock : Nat × Int} (h : Pending rows eligibleOpener s n lock)
    (hn : n < rows.length)
    (hrecent : timeAt rows n - timeAt rows lock.1 < morrisonLockTimeoutNs)
    (hends : TurnsOn rows n ∨ EndsUse rows eligibleOpener s n) :
    Unlocked rows eligibleOpener s n := by
  intro other hafter hbefore hholds
  rcases lt_or_ge other lock.1 with hearlier | hlater
  · exact h.first other hafter hearlier hholds
  · have hmono := timeAt_mono hsorted hlater (hbefore.trans hn)
    exact hholds.2 n ⟨hbefore, hn, by omega, hends⟩

/-- A lock that holds closes the use at the screen-off. -/
theorem MorrisonInv.lock {use : Nat × String} {lock : Nat × Int}
    (h : MorrisonInv rows eligibleOpener n st closes) (huse : st.openUse = some use)
    (hlock : st.pendingLock = some lock) (hn : n ≤ rows.length)
    (hover : ∀ j, n ≤ j → j < rows.length →
      morrisonLockTimeoutNs ≤ timeAt rows j - timeAt rows lock.1) :
    ∃ closes, MorrisonReady rows eligibleOpener n (morrisonLock st) closes := by
  obtain ⟨output, openUse, pendingLock⟩ := st
  obtain rfl : openUse = some use := huse
  obtain rfl : pendingLock = some lock := hlock
  obtain ⟨hprogress, hwatched, hsettled⟩ := h
  have hwatch := hwatched use rfl
  have hpending := hwatch.pending lock rfl
  have hlocks := hpending.locks hwatch.unbroken hn hover
  let c : EpisodeClose := ⟨use.1, lock.1, .screenLockedPastTimeout, some lock.2⟩
  have hended : endedAt rows c = timeAt rows lock.1 := hpending.instant
  have hclosed := hprogress.close c rfl
    (hended ▸ timeAt_mono hsorted hpending.after.le hlocks.inside) fun j hj hlen =>
      hended ▸ timeAt_mono hsorted (hpending.seen.le.trans hj) hlen
  refine ⟨closes ++ [c], ⟨hclosed, by simp [morrisonLock], ?_⟩, by simp [morrisonLock]⟩
  refine List.forall_mem_append.mpr ⟨hsettled, List.forall_mem_singleton.mpr ?_⟩
  exact .inl ⟨rfl, hlocks, congrArg some hpending.instant⟩

theorem morrisonResolve_ready (hfits : ElapsedFits rows) (hn : n < rows.length)
    (h : MorrisonInv rows eligibleOpener n st closes) :
    ∃ closes, MorrisonReady rows eligibleOpener n (morrisonResolve rows st n) closes := by
  have hinv := h
  obtain ⟨output, openUse, pendingLock⟩ := st
  obtain ⟨hprogress, hwatched, hsettled⟩ := h
  dsimp only at hprogress hwatched
  cases openUse with
  | none => exact ⟨closes, ⟨hprogress, by simp [morrisonResolve], hsettled⟩,
      by simp [morrisonResolve]⟩
  | some use =>
      cases pendingLock with
      | none => exact ⟨closes, ⟨hprogress, hwatched, hsettled⟩, by simp [morrisonResolve]⟩
      | some lock =>
          have hwatch := hwatched use rfl
          have hpending := hwatch.pending lock rfl
          have helapsed : wrap64 (timeAt rows n - lock.2) = timeAt rows n - timeAt rows lock.1 := by
            rw [hpending.instant]
            exact wrap64_of_fits (hfits lock.1 n hpending.seen.le hn)
          unfold morrisonResolve
          dsimp only
          change ∃ closes, MorrisonReady rows eligibleOpener n
            (if morrisonLockTimeoutNs ≤ wrap64 (timeAt rows n - lock.2) then _ else _) closes
          rw [helapsed]
          split
          · -- the lock has lasted long enough to end the use
            case isTrue hlong =>
              refine hinv.lock hsorted rfl rfl hn.le fun j hj hlen => ?_
              have hmono := timeAt_mono hsorted hj hlen
              omega
          · case isFalse hshort =>
              have hrecent := not_le.mp hshort
              split
              · -- the screen comes on again in time: the use goes on
                case isTrue hon =>
                  have hunlocked := hpending.unlocked hsorted hn hrecent (.inl hon)
                  refine ⟨closes, ⟨hprogress, fun other hother => ?_, hsettled⟩, by simp⟩
                  obtain rfl := Option.mem_some.mp hother
                  exact ⟨hwatch.unbroken, fun _ => hunlocked, by simp⟩
              · case isFalse hdark =>
                  refine ⟨closes, ⟨hprogress, hwatched, hsettled⟩, fun other hother _ => ?_⟩
                  obtain rfl := Option.mem_some.mp hother
                  exact ⟨hrecent, hdark⟩

/-- No lock precedes the row that ends the use. -/
theorem MorrisonReady.not_locks {use : Nat × String}
    (h : MorrisonReady rows eligibleOpener n st closes) (huse : use ∈ st.openUse)
    (hn : n < rows.length) (hends : EndsUse rows eligibleOpener use.1 n) (lock : Nat) :
    ¬ Locks rows eligibleOpener use.1 lock := by
  intro hlocks
  have hwatch := h.watched use huse
  have hunlocked : Unlocked rows eligibleOpener use.1 n := by
    cases hpending : st.pendingLock with
    | none => exact hwatch.unlocked hpending
    | some pending =>
        have hrecent := h.recent pending hpending (Option.isSome_of_mem huse)
        exact (hwatch.pending pending hpending).unlocked hsorted hn hrecent.1 (.inr hends)
  have hprogress := h.progress
  rw [Option.mem_def.mp huse] at hprogress
  rcases lt_trichotomy lock n with hbefore | rfl | hbehind
  · exact hunlocked lock hlocks.after hbefore hlocks.holds
  · obtain ⟨hopener, hoff⟩ := hlocks.holds.1
    rcases hends with hopens | ⟨hpause, -⟩
    · exact hopener hopens
    · rw [hpause] at hoff
      exact absurd hoff (by decide)
  · exact hlocks.unbroken n hprogress.order.current_lt hbehind hends

/-- The closes after a row that ends the open use, if there is one. -/
theorem MorrisonReady.settled_close (h : MorrisonReady rows eligibleOpener n st closes)
    (hn : n < rows.length) (hends : ∀ use ∈ st.openUse, EndsUse rows eligibleOpener use.1 n)
    {reason : EpisodeCloseReason} (hreason : reason ≠ .screenLockedPastTimeout) :
    ∀ c ∈ closes ++ st.openUse.toList.map fun use => ⟨use.1, n, reason, none⟩,
      Settled rows eligibleOpener c := by
  refine List.forall_mem_append.mpr ⟨h.settled, fun c hc => ?_⟩
  obtain ⟨use, huse, rfl⟩ := List.mem_map.mp hc
  rw [Option.mem_toList] at huse
  exact .inr ⟨hreason, hends use huse, rfl, h.not_locks hsorted huse hn (hends use huse)⟩

theorem morrisonRow_inv (hn : n < rows.length)
    (h : MorrisonReady rows eligibleOpener n st closes) :
    ∃ closes, MorrisonInv rows eligibleOpener (n + 1) (morrisonRow rows eligibleOpener st n)
      closes := by
  unfold morrisonRow
  dsimp only
  split
  · case isTrue hopens =>
      refine ⟨_, h.progress.handsOver hsorted hopens hn, fun use huse => ?_,
        h.settled_close hsorted hn (fun _ _ => .inl hopens) (by decide)⟩
      obtain rfl := Option.mem_some.mp huse
      exact ⟨fun j hj hrow => by omega, fun _ lock hj hrow => by omega, by simp⟩
  · case isFalse hnot =>
      have hpackage : isOpenPackage st.openUse (rowAt rows n).appPackageName = true ↔
          ∃ use ∈ st.openUse,
            (rowAt rows use.1).appPackageName = (rowAt rows n).appPackageName := by
        simp only [isOpenPackage, Option.any_eq_true, beq_iff_eq, Option.mem_def]
        exact exists_congr fun use => and_congr_right fun huse => by
          rw [h.progress.package use huse]
      split
      · case isTrue hpause =>
          have hnotOff : ¬ TurnsOff rows eligibleOpener n := fun hoff => by
            rw [TurnsOff, hpause] at hoff
            exact absurd hoff.2 (by decide)
          split
          · case isTrue hown =>
              obtain ⟨use, huse, hsame⟩ := hpackage.mp hown
              have hends : ∀ other ∈ st.openUse, EndsUse rows eligibleOpener other.1 n := by
                intro other hother
                obtain rfl := Option.mem_unique huse hother
                exact .inr ⟨hpause, hsame⟩
              exact ⟨_, (h.progress.closesAt hsorted hn .samePackageBackgrounded).pass hnot,
                by simp, h.settled_close hsorted hn hends (by decide)⟩
          · case isFalse hother =>
              refine ⟨closes, h.pass hnot (fun use huse hends => ?_) fun _ _ => hnotOff⟩
              exact hother (hpackage.mpr ⟨use, huse, (hends.resolve_left hnot).2⟩)
      · case isFalse hpause =>
          have hends : ∀ use ∈ st.openUse, ¬ EndsUse rows eligibleOpener use.1 n :=
            fun _ _ hends => hpause (hends.resolve_left hnot).1
          split
          · case isTrue hoff =>
              -- the first screen-off of a run is held
              obtain ⟨hoff, -, hnone⟩ := hoff
              rw [Option.isNone_iff_eq_none] at hnone
              refine ⟨closes, h.progress.pass hnot, fun use huse => ?_, h.settled⟩
              have hwatch := h.watched use huse
              have hprogress := h.progress
              rw [Option.mem_def.mp huse] at hprogress
              refine ⟨unbroken_succ hwatch.unbroken (hends use huse), by simp, fun lock hlock => ?_⟩
              obtain rfl := Option.mem_some.mp hlock
              exact ⟨rfl, hprogress.order.current_lt, Nat.lt_succ_self n, ⟨hnot, hoff⟩,
                hwatch.unlocked hnone, fun j hj hrow => by omega⟩
          · case isFalse hkeep =>
              refine ⟨closes, h.pass hnot hends fun hsome hnone hoff => ?_⟩
              exact hkeep ⟨hoff.2, hsome, Option.isNone_iff_eq_none.mpr hnone⟩

theorem morrisonStep_inv (hfits : ElapsedFits rows) (hn : n < rows.length)
    (h : MorrisonInv rows eligibleOpener n st closes) :
    ∃ closes, MorrisonInv rows eligibleOpener (n + 1) (morrisonStep rows eligibleOpener st n)
      closes := by
  obtain ⟨_, hready⟩ := morrisonResolve_ready hsorted hfits hn h
  exact morrisonRow_inv hsorted hn hready

/-- A lock still pending when the stream ends counts, so none is pending for a use left open. -/
theorem MorrisonInv.finish (h : MorrisonInv rows eligibleOpener rows.length st closes) :
    ∃ closes, MorrisonInv rows eligibleOpener rows.length (morrisonLock st) closes ∧
      ((morrisonLock st).openUse.isSome = true → (morrisonLock st).pendingLock = none) := by
  cases huse : st.openUse with
  | none =>
      have hlock : morrisonLock st = st := by simp [morrisonLock, huse]
      rw [hlock]
      exact ⟨closes, h, by simp [huse]⟩
  | some use =>
      cases hpending : st.pendingLock with
      | none =>
          have hlock : morrisonLock st = st := by simp [morrisonLock, huse, hpending]
          rw [hlock]
          exact ⟨closes, h, fun _ => hpending⟩
      | some lock =>
          obtain ⟨closes, hready⟩ := h.lock hsorted huse hpending le_rfl
            fun j hj hlen => absurd hlen (not_lt.mpr hj)
          exact ⟨closes, hready.toMorrisonInv, by simp [morrisonLock, huse, hpending]⟩

/-- The lock-tolerant matcher: which uses end at a lock, and at which screen-off. -/
theorem morrison_episodes_in_order (hfits : ElapsedFits rows) :
    ∃ closes missing,
      morrisonEpisodes rows eligibleOpener =
          record (openers eligibleOpener rows.length) closes missing ∧
        EpisodesInOrder rows (openers eligibleOpener rows.length) closes missing ∧
        (∀ c ∈ closes, Settled rows eligibleOpener c) ∧
        ∀ s ∈ missing, ∀ lock, ¬ Locks rows eligibleOpener s lock := by
  have hstart : ∃ closes, MorrisonInv rows eligibleOpener 0
      { output := {}, openUse := none, pendingLock := none } closes :=
    ⟨[], progress_start, by simp, by simp⟩
  have hrun := Loop.foldl_range_induction (P := fun n st =>
    ∃ closes, MorrisonInv rows eligibleOpener n st closes) hstart
    fun n st hn ⟨closes, h⟩ => morrisonStep_inv hsorted hfits hn h
  obtain ⟨_, h⟩ := hrun
  obtain ⟨closes, hinv, hnone⟩ := h.finish hsorted
  refine ⟨closes, _, hinv.progress.report.1, hinv.progress.report.2, hinv.settled,
    fun s hs lock hlocks => ?_⟩
  obtain ⟨use, huse, rfl⟩ := List.mem_map.mp hs
  rw [Option.mem_toList] at huse
  have hunlocked := (hinv.watched use huse).unlocked (hnone (Option.isSome_of_mem huse))
  exact hunlocked lock hlocks.after hlocks.inside hlocks.holds

/-- Of the uses that follow one another in either matcher, no closed one of the interruption-aware
rule has ten minutes of silence in it, and one of the lock-tolerant rule ends at a lock exactly if a
screen-off before its next handover or own pause is not resolved within thirty seconds; it then ends
at the first such screen-off, and otherwise at the row that ends the use. -/
theorem draxler_and_morrison_episodes (hfits : ElapsedFits rows) (eligibleOpener : List Bool) :
    (∃ closes missing,
      draxlerEpisodes rows eligibleOpener =
          record (openers eligibleOpener rows.length) closes missing ∧
        EpisodesInOrder rows (openers eligibleOpener rows.length) closes missing ∧
        ∀ c ∈ closes, Calm rows c) ∧
    ∃ closes missing,
      morrisonEpisodes rows eligibleOpener =
          record (openers eligibleOpener rows.length) closes missing ∧
        EpisodesInOrder rows (openers eligibleOpener rows.length) closes missing ∧
        (∀ s ∈ openers eligibleOpener rows.length,
          (∃ c ∈ closes, c.start = s ∧ c.reason = .screenLockedPastTimeout) ↔
            ∃ lock, Locks rows eligibleOpener s lock) ∧
        ∀ c ∈ closes,
          if c.reason = .screenLockedPastTimeout then
            Locks rows eligibleOpener c.start c.stop ∧ c.instant = some (timeAt rows c.stop)
          else EndsUse rows eligibleOpener c.start c.stop ∧ c.instant = none := by
  refine ⟨draxler_episodes_in_order hsorted hfits, ?_⟩
  obtain ⟨closes, missing, hrecord, horder, hsettled, hmissing⟩ :=
    @morrison_episodes_in_order rows eligibleOpener hsorted hfits
  refine ⟨closes, missing, hrecord, horder, fun s hs => ⟨?_, ?_⟩, fun c hc => ?_⟩
  · rintro ⟨c, hc, rfl, hreason⟩
    rcases hsettled c hc with ⟨-, hlocks, -⟩ | ⟨hother, -⟩
    · exact ⟨c.stop, hlocks⟩
    · exact absurd hreason hother
  · rintro ⟨lock, hlocks⟩
    rw [horder.accounted] at hs
    rcases List.mem_append.mp hs with hs | hs
    · obtain ⟨c, hc, rfl⟩ := List.mem_map.mp hs
      rcases hsettled c hc with ⟨hreason, -⟩ | ⟨-, -, -, hnever⟩
      · exact ⟨c, hc, rfl, hreason⟩
      · exact absurd hlocks (hnever lock)
    · exact absurd hlocks (hmissing s hs lock)
  · rcases hsettled c hc with ⟨hreason, hlocks, hinstant⟩ | ⟨hother, hends, hinstant, -⟩
    · rw [if_pos hreason]
      exact ⟨hlocks, hinstant⟩
    · rw [if_neg hother]
      exact ⟨hends, hinstant⟩

end Sorted

end Morrison

/-! ## A pocket check before a lock -/

/-- An app is opened, the screen goes off for five seconds, and later for forty. -/
def pocketCheck : List Row :=
  [{ interactionType := activityResumed, appPackageName := "app" },
    { interactionType := "Screen Non-Interactive", eventTimestampNs := 10000000000 },
    { interactionType := "Screen Interactive", eventTimestampNs := 15000000000 },
    { interactionType := "Screen Non-Interactive", eventTimestampNs := 20000000000 },
    { interactionType := "Screen Interactive", eventTimestampNs := 60000000000 }]

theorem pocketCheck_sorted :
    pocketCheck.Pairwise fun a b => a.eventTimestampNs ≤ b.eventTimestampNs := by
  decide +kernel

theorem pocketCheck_fits : ElapsedFits pocketCheck := by
  intro i j hij hj
  have hall : ∀ j < pocketCheck.length, ∀ i < j + 1,
      Fits64 (timeAt pocketCheck j - timeAt pocketCheck i) := by
    decide +kernel
  exact hall j hj i (Nat.lt_succ_of_le hij)

theorem pocketCheck_episodes :
    morrisonEpisodes pocketCheck [true] =
      record (openers [true] pocketCheck.length)
        [⟨0, 3, .screenLockedPastTimeout, some 20000000000⟩] [] := by
  decide +kernel

theorem draxler_and_morrison_episodes_pocketCheck :
    morrisonEpisodes pocketCheck [true] =
        record [0] [⟨0, 3, .screenLockedPastTimeout, some 20000000000⟩] [] ∧
      Locks pocketCheck [true] 0 3 := by
  have hall := draxler_and_morrison_episodes pocketCheck_sorted pocketCheck_fits [true]
  obtain ⟨-, closes, missing, hrecord, -, -, hcloses⟩ := hall
  rw [pocketCheck_episodes] at hrecord
  obtain rfl := closes_eq_of_record_eq hrecord
  exact ⟨pocketCheck_episodes, (hcloses _ (List.mem_singleton_self _)).1⟩

/-- The first screen-off behind the row is not followed by a screen-on within thirty seconds. -/
def FirstScreenOffStays (rows : List Row) (eligibleOpener : List Bool) (s : Nat) : Prop :=
  ∃ lock, s < lock ∧ lock < rows.length ∧ TurnsOff rows eligibleOpener lock ∧
    (∀ other, s < other → other < lock → ¬ TurnsOff rows eligibleOpener other) ∧
    ∀ j, lock < j → j < rows.length →
      timeAt rows j - timeAt rows lock < morrisonLockTimeoutNs → ¬ TurnsOn rows j

/-- A lock that ends a use need not be the first screen-off after its start. -/
theorem lock_not_at_first_screen_off :
    ¬ ∀ (rows : List Row) (eligibleOpener : List Bool) (closes : List EpisodeClose)
      (missing : List Nat),
      (rows.Pairwise fun a b => a.eventTimestampNs ≤ b.eventTimestampNs) → ElapsedFits rows →
      morrisonEpisodes rows eligibleOpener =
        record (openers eligibleOpener rows.length) closes missing →
      ∀ s ∈ openers eligibleOpener rows.length,
        (∃ c ∈ closes, c.start = s ∧ c.reason = .screenLockedPastTimeout) ↔
          FirstScreenOffStays rows eligibleOpener s := by
  intro h
  have hiff := h pocketCheck [true] _ [] pocketCheck_sorted pocketCheck_fits pocketCheck_episodes 0
    (by decide)
  obtain ⟨lock, hafter, hlen, hoff, hfirst, hstays⟩ :=
    hiff.mp ⟨_, List.mem_singleton_self _, rfl, rfl⟩
  have hone : TurnsOff pocketCheck [true] 1 := ⟨by decide, by decide⟩
  obtain rfl : lock = 1 := by
    by_contra hne
    exact hfirst 1 (by decide) (by omega) hone
  exact hstays 2 (by decide) (by decide) (by decide) (by unfold TurnsOn; decide)

end Chronicle.Pipeline
