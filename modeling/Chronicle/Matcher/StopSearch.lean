import Chronicle.Matcher.FusedRule
import Chronicle.Matcher.OpenStartSpecs
import Mathlib.Data.List.TakeWhile

/-!
# Which open starts a stop event finds

The list-based search and the vector scan decide compatibility in different words. Here both are
expressed through `isCompatibleOpenStartForStop`: without any order the lists find only compatible
starts, and on non-decreasing timestamps they find exactly the ones the scan finds.
-/

namespace Chronicle.Matcher

open SparseOpenStarts

/-- Stopping at the first element that fails keeps all that pass, when passing is inherited by
earlier elements. -/
theorem takeWhile_eq_filter {α : Type*} {p : α → Bool} {l : List α}
    (h : l.Pairwise fun x y => p y = true → p x = true) : l.takeWhile p = l.filter p := by
  induction l with
  | nil => rfl
  | cons x rest ih =>
      rw [List.pairwise_cons] at h
      cases hx : p x with
      | true => simp [hx, ih h.2]
      | false =>
          have hrest : rest.filter p = [] := by
            rw [List.filter_eq_nil_iff]
            intro y hy hpy
            have := h.1 y hy hpy
            simp [hx] at this
          simp [hx, hrest]

section Modes

variable {a : EventArrays} {options : MatchOptions} {index : Nat}

/-- An event has a stop mode exactly when it is a normal or a fallback stop. -/
theorem isStop_eq (a : EventArrays) (options : MatchOptions) (index : Nat) :
    (isNormalStop a index || isFallbackStop a options index) =
      (sparseStopMode a options index).isSome := by
  unfold sparseStopMode isNormalStop
  cases a.isSameStop index <;> cases a.isOtherStop index <;>
    cases isFallbackStop a options index <;> rfl

/-- The starts a stop of this mode may close, whatever their durations. -/
def modeWants (a : EventArrays) (mode : SparseStopMode) (index startIndex : Nat) : Bool :=
  match mode with
  | .sameApp | .fallbackSameApp => a.appCode startIndex == a.appCode index
  | .otherApp => otherAppPredicate a index startIndex
  | .anyApp => anyAppPredicate a index startIndex

/-- Only the fallback mode may leave the threshold out. -/
theorem enforcesThreshold_eq (options : MatchOptions) (mode : SparseStopMode) :
    sparseStopEnforcesThreshold options mode =
      match mode with
      | .fallbackSameApp => options.applyThresholdToFallback
      | _ => true := by
  cases mode <;> rfl

/-- The mode and the per-start tests decide compatibility alike. -/
theorem compatible_eq {mode : SparseStopMode} (h : sparseStopMode a options index = some mode)
    (start : Nat) :
    isCompatibleOpenStartForStop a options index start =
      (modeWants a mode index start && sparseValid a options mode index start) := by
  unfold sparseStopMode at h
  unfold isCompatibleOpenStartForStop sameAppCompatible otherAppCompatible fallbackCompatible
    isNormalStop sparseValid
  rw [enforcesThreshold_eq]
  cases hsame : a.isSameStop index <;> cases hother : a.isOtherStop index <;>
    cases hfallback : isFallbackStop a options index <;> simp [hsame, hother, hfallback] at h <;>
    subst h <;> simp [modeWants, otherAppPredicate, anyAppPredicate] <;>
    by_cases happ : a.appCode start = a.appCode index <;>
    cases a.isBackground start <;> simp [happ]

/-- The fallback test passes exactly in the fallback mode. -/
theorem fallbackCompatible_eq {mode : SparseStopMode}
    (h : sparseStopMode a options index = some mode) {start : Nat}
    (hcompat : isCompatibleOpenStartForStop a options index start = true) :
    fallbackCompatible a options index start = decide (mode = .fallbackSameApp) := by
  rw [compatible_eq h, Bool.and_eq_true] at hcompat
  unfold sparseStopMode at h
  unfold fallbackCompatible isNormalStop
  cases hsame : a.isSameStop index <;> cases hother : a.isOtherStop index <;>
    cases hfallback : isFallbackStop a options index <;> simp [hsame, hother, hfallback] at h <;>
    subst h <;> simp_all [modeWants]

end Modes

section Search

variable {a : EventArrays} {options : MatchOptions} {index : Nat} {mode : SparseStopMode}
variable {s : SparseOpenStarts} {opens : List Nat}

/-- With no negative code, a slot holds exactly the starts of its app. -/
theorem ofApp_eq (hcodes : a.NonnegativeCodes) (hindex : index < a.len)
    (hopens : ∀ start ∈ opens, start < a.len) :
    ofApp a (a.appCode index) opens =
      opens.filter fun start => a.appCode start == a.appCode index := by
  apply List.filter_congr
  intro start hstart
  have hcode := hcodes index hindex
  have hother := hcodes start (hopens start hstart)
  rw [Bool.eq_iff_iff]
  simp only [beq_iff_eq]
  omega

/-- Reuse closes compatible open starts only, and keeps the other ones open. -/
theorem sparseCloseMatches_spec (hcodes : a.NonnegativeCodes) (hindex : index < a.len)
    (hmode : sparseStopMode a options index = some mode)
    (h : s.Represents a index opens) :
    (sparseCloseMatches a options mode index s).1.Represents a index
        (opens.filter fun start => start ∉ (sparseCloseMatches a options mode index s).2) ∧
      (sparseCloseMatches a options mode index s).2.Sublist opens.reverse ∧
      ∀ start ∈ (sparseCloseMatches a options mode index s).2,
        isCompatibleOpenStartForStop a options index start = true := by
  have hopens : ∀ start ∈ opens, start < a.len := fun start hstart => by
    have := (h.mem_open hstart).1
    omega
  -- the modes for one app walk its own chain, the others the chain of all starts
  have hsame : (mode = .sameApp ∨ mode = .fallbackSameApp) →
      (s.closeSameAppMatches (a.appCode index) (sparseValid a options mode index)).2.Sublist
          opens.reverse ∧
        ∀ start ∈ (s.closeSameAppMatches (a.appCode index) (sparseValid a options mode index)).2,
          isCompatibleOpenStartForStop a options index start = true := by
    intro hcase
    rw [(h.closeSameApp_spec _ _).1, ofApp_eq hcodes hindex hopens]
    refine ⟨(List.takeWhile_sublist _).trans List.filter_sublist.reverse, ?_⟩
    intro start hstart
    have hvalid := List.mem_takeWhile_imp hstart
    have hin := (List.takeWhile_sublist _).mem hstart
    rw [List.mem_reverse, List.mem_filter] at hin
    rw [compatible_eq hmode, hvalid]
    rcases hcase with rfl | rfl <;> simpa [modeWants] using hin.2
  have hglobal : ∀ predicate : Nat → Bool,
      (∀ start, predicate start = modeWants a mode index start) →
      (s.closeMatchingGlobal (sparseValid a options mode index) predicate).2.Sublist
          opens.reverse ∧
        ∀ start ∈ (s.closeMatchingGlobal (sparseValid a options mode index) predicate).2,
          isCompatibleOpenStartForStop a options index start = true := by
    intro predicate hpredicate
    rw [(h.closeGlobal_spec _ _).1]
    refine ⟨List.filter_sublist.trans (List.takeWhile_sublist _), ?_⟩
    intro start hstart
    rw [List.mem_filter] at hstart
    rw [compatible_eq hmode, List.mem_takeWhile_imp hstart.1, ← hpredicate, hstart.2]
    rfl
  cases mode with
  | sameApp => exact ⟨(h.closeSameApp_spec _ _).2, hsame (.inl rfl)⟩
  | fallbackSameApp => exact ⟨(h.closeSameApp_spec _ _).2, hsame (.inr rfl)⟩
  | otherApp => exact ⟨(h.closeGlobal_spec _ _).2, hglobal _ fun _ => rfl⟩
  | anyApp => exact ⟨(h.closeGlobal_spec _ _).2, hglobal _ fun _ => rfl⟩

/-- A single match is a compatible open start. -/
theorem sparseLatestMatch_spec (hcodes : a.NonnegativeCodes) (hindex : index < a.len)
    (hmode : sparseStopMode a options index = some mode)
    (h : s.Represents a index opens) :
    (sparseLatestMatch a options mode index s).1.Represents a index opens ∧
      ∀ start, (sparseLatestMatch a options mode index s).2 = some start →
        start ∈ opens ∧ isCompatibleOpenStartForStop a options index start = true := by
  have hopens : ∀ start ∈ opens, start < a.len := fun start hstart => by
    have := (h.mem_open hstart).1
    omega
  have hsame : (mode = .sameApp ∨ mode = .fallbackSameApp) → ∀ start,
      (s.latestSameApp (a.appCode index) (sparseValid a options mode index)).2 = some start →
        start ∈ opens ∧ isCompatibleOpenStartForStop a options index start = true := by
    intro hcase start hstart
    rw [h.latestSameApp_found, ofApp_eq hcodes hindex hopens, Option.filter_eq_some_iff] at hstart
    have hin := List.mem_of_head? hstart.1
    rw [List.mem_reverse, List.mem_filter] at hin
    refine ⟨hin.1, ?_⟩
    rw [compatible_eq hmode, hstart.2]
    rcases hcase with rfl | rfl <;> simpa [modeWants] using hin.2
  have hglobal : ∀ predicate : Nat → Bool,
      (∀ start, predicate start = modeWants a mode index start) → ∀ start,
      (s.latestMatchingGlobal (sparseValid a options mode index) predicate).2 = some start →
        start ∈ opens ∧ isCompatibleOpenStartForStop a options index start = true := by
    intro predicate hpredicate start hstart
    rw [h.latestMatchingGlobal_found] at hstart
    have hin := List.mem_of_find?_eq_some hstart
    refine ⟨List.mem_reverse.mp ((List.takeWhile_sublist _).mem hin), ?_⟩
    rw [compatible_eq hmode, List.mem_takeWhile_imp hin, ← hpredicate, List.find?_some hstart]
    rfl
  cases mode with
  | sameApp => exact ⟨h.latestSameApp_represents _ _, hsame (.inl rfl)⟩
  | fallbackSameApp => exact ⟨h.latestSameApp_represents _ _, hsame (.inr rfl)⟩
  | otherApp => exact ⟨h.latestMatchingGlobal_represents _ _, hglobal _ fun _ => rfl⟩
  | anyApp => exact ⟨h.latestMatchingGlobal_represents _ _, hglobal _ fun _ => rfl⟩

/-- On sorted timestamps an older open start is never valid when a newer one is too long. -/
theorem valid_of_older (hsorted : a.SortedTimestamps) (hindex : index < a.len) {newer older : Nat}
    (hnewer : newer < index) (hle : older ≤ newer)
    (hvalid : sparseValid a options mode index older = true) :
    sparseValid a options mode index newer = true := by
  have hfirst := hsorted older newer hle (by omega)
  have hsecond := hsorted newer index (by omega) hindex
  unfold sparseValid isValidDuration at hvalid ⊢
  dsimp only at hvalid ⊢
  rw [if_neg (by omega)] at hvalid ⊢
  rw [Bool.or_eq_true, decide_eq_true_eq] at hvalid ⊢
  exact hvalid.imp_right fun hlong => by omega

/-- On sorted timestamps the walk from the newest open start on sees every valid one. -/
theorem takeWhile_valid (options : MatchOptions) (mode : SparseStopMode) (hsorted : a.SortedTimestamps) (hindex : index < a.len)
    (hdec : opens.Pairwise (· < ·)) (hlt : ∀ start ∈ opens, start < index) :
    opens.reverse.takeWhile (sparseValid a options mode index) =
      opens.reverse.filter (sparseValid a options mode index) := by
  apply takeWhile_eq_filter
  rw [List.pairwise_reverse]
  refine hdec.imp_of_mem ?_
  intro older newer _ hnewer hle hvalid
  exact valid_of_older hsorted hindex (hlt newer hnewer) (Nat.le_of_lt hle) hvalid

/-- On sorted timestamps reuse closes every compatible open start, newest first. -/
theorem sparseCloseMatches_sorted (hcodes : a.NonnegativeCodes) (hsorted : a.SortedTimestamps)
    (hindex : index < a.len) (hmode : sparseStopMode a options index = some mode)
    (h : s.Represents a index opens) :
    (sparseCloseMatches a options mode index s).2 =
      (opens.filter (isCompatibleOpenStartForStop a options index)).reverse := by
  have hlt : ∀ start ∈ opens, start < index := fun start hstart => (h.mem_open hstart).1
  have hopens : ∀ start ∈ opens, start < a.len := fun start hstart => by
    have := hlt start hstart
    omega
  have hcompat : isCompatibleOpenStartForStop a options index =
      fun start => modeWants a mode index start && sparseValid a options mode index start :=
    funext fun start => compatible_eq hmode start
  have hsame : (ofApp a (a.appCode index) opens).reverse.takeWhile
        (sparseValid a options mode index) =
      (opens.filter fun start => a.appCode start == a.appCode index &&
        sparseValid a options mode index start).reverse := by
    rw [ofApp_eq hcodes hindex hopens,
      takeWhile_valid options mode hsorted hindex (h.increasing.filter _)
        (fun start hstart => hlt start (List.mem_of_mem_filter hstart)),
      List.filter_reverse, List.filter_filter]
    congr 1
    apply List.filter_congr
    intro start _
    exact Bool.and_comm _ _
  have hglobal : ∀ predicate : Nat → Bool,
      (opens.reverse.takeWhile (sparseValid a options mode index)).filter predicate =
        (opens.filter fun start => predicate start &&
          sparseValid a options mode index start).reverse := by
    intro predicate
    rw [takeWhile_valid options mode hsorted hindex h.increasing hlt, List.filter_filter, List.filter_reverse]
  cases mode with
  | sameApp => rw [hcompat]; exact (h.closeSameApp_spec _ _).1.trans hsame
  | fallbackSameApp => rw [hcompat]; exact (h.closeSameApp_spec _ _).1.trans hsame
  | otherApp => rw [hcompat]; exact (h.closeGlobal_spec _ _).1.trans (hglobal _)
  | anyApp => rw [hcompat]; exact (h.closeGlobal_spec _ _).1.trans (hglobal _)

/-- On sorted timestamps a single match is the newest compatible open start. -/
theorem sparseLatestMatch_sorted (hcodes : a.NonnegativeCodes) (hsorted : a.SortedTimestamps)
    (hindex : index < a.len) (hmode : sparseStopMode a options index = some mode)
    (h : s.Represents a index opens) :
    (sparseLatestMatch a options mode index s).2 =
      opens.reverse.find? (isCompatibleOpenStartForStop a options index) := by
  have hlt : ∀ start ∈ opens, start < index := fun start hstart => (h.mem_open hstart).1
  have hopens : ∀ start ∈ opens, start < a.len := fun start hstart => by
    have := hlt start hstart
    omega
  have hcompat : isCompatibleOpenStartForStop a options index =
      fun start => sparseValid a options mode index start && modeWants a mode index start :=
    funext fun start => (compatible_eq hmode start).trans (Bool.and_comm _ _)
  have hsame : ((ofApp a (a.appCode index) opens).reverse.head?).filter
        (sparseValid a options mode index) =
      opens.reverse.find? fun start => sparseValid a options mode index start &&
        (a.appCode start == a.appCode index) := by
    rw [ofApp_eq hcodes hindex hopens]
    have hvalid := takeWhile_valid options mode hsorted hindex
      (h.increasing.filter fun start => a.appCode start == a.appCode index)
      (fun start hstart => hlt start (List.mem_of_mem_filter hstart))
    have hhead : ∀ l : List Nat, l.head?.filter (sparseValid a options mode index) =
        (l.takeWhile (sparseValid a options mode index)).head? := by
      intro l
      cases l with
      | nil => rfl
      | cons x rest => cases hx : sparseValid a options mode index x <;> simp [hx, Option.filter]
    rw [hhead, hvalid, List.filter_reverse, List.filter_filter, ← List.filter_reverse,
      List.head?_filter]
  have hglobal : ∀ predicate : Nat → Bool,
      (opens.reverse.takeWhile (sparseValid a options mode index)).find? predicate =
        opens.reverse.find? fun start => sparseValid a options mode index start &&
          predicate start := by
    intro predicate
    rw [takeWhile_valid options mode hsorted hindex h.increasing hlt, List.find?_filter]
    simp only [Bool.decide_and, Bool.decide_eq_true]
  cases mode with
  | sameApp => rw [hcompat]; exact (h.latestSameApp_found _ _).trans hsame
  | fallbackSameApp => rw [hcompat]; exact (h.latestSameApp_found _ _).trans hsame
  | otherApp => rw [hcompat]; exact (h.latestMatchingGlobal_found _ _).trans (hglobal _)
  | anyApp => rw [hcompat]; exact (h.latestMatchingGlobal_found _ _).trans (hglobal _)

end Search

end Chronicle.Matcher
