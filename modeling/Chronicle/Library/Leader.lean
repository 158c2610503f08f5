import Mathlib.Data.List.Induction
import Mathlib.Logic.Function.Basic

/-!
# The leader of a running count

One pass over a list counts its elements and keeps as its leader the last element whose count rose
above the leader's. The leader occurs most often, and of several such elements it is the one that
stops occurring first, which need not be the one that began to occur first.
-/

namespace Chronicle.Library.Leader

variable {α : Type*} [DecidableEq α]

/-- The counts so far, and the leader with its count. -/
structure RunningCount (α : Type*) where
  counts : α → Nat
  leader : α
  leaderCount : Nat

/-- Nothing counted; `fallback` stands in for a leader. -/
def RunningCount.initial (fallback : α) : RunningCount α := ⟨fun _ => 0, fallback, 0⟩

/-- One element counted. -/
def RunningCount.count (state : RunningCount α) (x : α) : RunningCount α :=
  let counts := Function.update state.counts x (state.counts x + 1)
  if state.leaderCount < counts x then ⟨counts, x, counts x⟩
  else ⟨counts, state.leader, state.leaderCount⟩

/-- The leader after the whole list. -/
def leader (fallback : α) (l : List α) : α :=
  (l.foldl RunningCount.count (RunningCount.initial fallback)).leader

/-! ## Most frequent elements -/

/-- The element occurs, and none occurs more often. -/
def MostFrequent (l : List α) (x : α) : Prop := x ∈ l ∧ ∀ y, l.count y ≤ l.count x

omit [DecidableEq α] in
/-- Up to some place `x` has occurred and `y` has not. -/
def BeginsBefore (l : List α) (x y : α) : Prop :=
  ∃ before after, l = before ++ after ∧ x ∈ before ∧ y ∉ before

omit [DecidableEq α] in
/-- From some place on `y` still occurs and `x` does not. -/
def EndsBefore (l : List α) (x y : α) : Prop :=
  ∃ before after, l = before ++ after ∧ x ∉ after ∧ y ∈ after

/-- Of the most frequent elements, the one that occurs first. -/
def FirstMostFrequent (l : List α) (x : α) : Prop :=
  MostFrequent l x ∧ ∀ y, MostFrequent l y → y ≠ x → BeginsBefore l x y

variable {l : List α} {x y fallback : α}

omit [DecidableEq α] in
theorem BeginsBefore.asymm (h : BeginsBefore l x y) : ¬ BeginsBefore l y x := by
  rintro ⟨before', after', hsplit', hy, hx⟩
  obtain ⟨before, after, hsplit, hx', hy'⟩ := h
  -- the shorter of the two prefixes is a prefix of the other
  rcases List.append_eq_append_iff.mp (hsplit.symm.trans hsplit') with
    ⟨rest, hrest, -⟩ | ⟨rest, hrest, -⟩
  · exact hx (hrest ▸ List.mem_append_left rest hx')
  · exact hy' (hrest ▸ List.mem_append_left rest hy)

omit [DecidableEq α] in
theorem EndsBefore.asymm (h : EndsBefore l x y) : ¬ EndsBefore l y x := by
  rintro ⟨before', after', hsplit', hy, hx⟩
  obtain ⟨before, after, hsplit, hx', hy'⟩ := h
  rcases List.append_eq_append_iff.mp (hsplit.symm.trans hsplit') with
    ⟨rest, -, hrest⟩ | ⟨rest, -, hrest⟩
  · exact hx' (hrest ▸ List.mem_append_right rest hx)
  · exact hy (hrest ▸ List.mem_append_right rest hy')

theorem FirstMostFrequent.unique (hx : FirstMostFrequent l x) (hy : FirstMostFrequent l y) :
    x = y := by
  by_contra hne
  exact (hx.2 y hy.1 (Ne.symm hne)).asymm (hy.2 x hx.1 hne)

/-- Where there is a most frequent element there is a first one. -/
theorem exists_firstMostFrequent (h : MostFrequent l x) : ∃ first, FirstMostFrequent l first := by
  classical
  obtain ⟨first, hfirst⟩ := Option.isSome_iff_exists.mp
    (List.find?_isSome.mpr ⟨x, h.1, decide_eq_true h⟩ :
      (l.find? fun y => decide (MostFrequent l y)).isSome)
  obtain ⟨hmost, before, after, hsplit, hbefore⟩ := List.find?_eq_some_iff_append.mp hfirst
  refine ⟨first, of_decide_eq_true hmost, fun y hy hne => ⟨before ++ [first], after, ?_, ?_, ?_⟩⟩
  · rw [hsplit, List.append_assoc, List.singleton_append]
  · simp
  · intro hmem
    rcases List.mem_append.mp hmem with hmem | hmem
    · have hnot := hbefore y hmem
      rw [Bool.not_eq_true', decide_eq_false_iff_not] at hnot
      exact hnot hy
    · exact hne (List.mem_singleton.mp hmem)

/-! ## What the pass keeps -/

/-- The pass over `l` has counted right, and its leader was the first to reach its count. -/
structure Counted (l : List α) (state : RunningCount α) : Prop where
  counts : ∀ x, state.counts x = l.count x
  bound : ∀ x, l.count x ≤ state.leaderCount
  empty : l = [] → state.leaderCount = 0
  reached : l ≠ [] → ∃ before after, l = before ++ state.leader :: after ∧
    state.leaderCount = before.count state.leader + 1 ∧
    ∀ x, before.count x < state.leaderCount

theorem counted_initial (fallback : α) : Counted [] (RunningCount.initial fallback) :=
  ⟨fun _ => rfl, fun _ => Nat.zero_le _, fun _ => rfl, fun h => absurd rfl h⟩

theorem counted_count {state : RunningCount α} (h : Counted l state) (x : α) :
    Counted (l ++ [x]) (state.count x) := by
  have hcounts : ∀ y, Function.update state.counts x (state.counts x + 1) y =
      (l ++ [x]).count y := by
    intro y
    by_cases hy : y = x
    · subst hy
      simp [h.counts]
    · simp [h.counts, hy, Ne.symm hy]
  have hx : Function.update state.counts x (state.counts x + 1) x = l.count x + 1 := by
    rw [Function.update_self, h.counts]
  unfold RunningCount.count
  dsimp only
  split
  · -- the count passes the leader's, so the element leads from here on
    case isTrue hlead =>
      rw [hx] at hlead
      have hlast : state.leaderCount = l.count x := by
        have := h.bound x
        omega
      refine ⟨hcounts, fun y => ?_, fun hnil => ?_, fun _ => ⟨l, [], rfl, hx, fun y => ?_⟩⟩
      · have hy := h.bound y
        have hone : [x].count y ≤ 1 := List.count_le_length
        simp only [hx, List.count_append]
        omega
      · exact absurd hnil (by simp)
      · have hy := h.bound y
        simp only [hx]
        omega
  · -- the leader keeps its place, since it was reached before
    case isFalse hlead =>
      rw [hx] at hlead
      refine ⟨hcounts, fun y => ?_, fun hnil => absurd hnil (by simp), fun _ => ?_⟩
      · by_cases hy : y = x
        · subst hy
          simp only [List.count_append, List.count_singleton_self]
          omega
        · simpa [List.count_append, Ne.symm hy] using h.bound y
      · have hne : l ≠ [] := by
          intro hnil
          have hzero := h.empty hnil
          omega
        obtain ⟨before, after, hsplit, hreached, hbefore⟩ := h.reached hne
        refine ⟨before, after ++ [x], ?_, hreached, hbefore⟩
        dsimp only
        conv_lhs => rw [hsplit]
        simp

theorem counted_foldl (fallback : α) (l : List α) :
    Counted l (l.foldl RunningCount.count (RunningCount.initial fallback)) := by
  induction l using List.reverseRecOn with
  | nil => exact counted_initial fallback
  | append_singleton l x ih =>
      rw [List.foldl_append]
      exact counted_count ih x

/-! ## The leader -/

@[simp]
theorem leader_nil (fallback : α) : leader fallback [] = fallback := rfl

/-- The leader occurs most often, and stops occurring before the others that do. -/
theorem leader_spec (h : l ≠ []) : MostFrequent l (leader fallback l) ∧
    ∀ y, MostFrequent l y → y ≠ leader fallback l → EndsBefore l (leader fallback l) y := by
  have hcounted := counted_foldl fallback l
  obtain ⟨before, after, hsplit, hreached, hbefore⟩ := hcounted.reached h
  change l = before ++ leader fallback l :: after at hsplit
  change _ = before.count (leader fallback l) + 1 at hreached
  have hcount : ∀ y, l.count y = before.count y + (leader fallback l :: after).count y := by
    intro y
    conv_lhs => rw [hsplit]
    exact List.count_append
  -- the leader's own count is the bound, so it does not occur again
  have hrest : after.count (leader fallback l) = 0 := by
    have htotal := hcount (leader fallback l)
    have hbound := hcounted.bound (leader fallback l)
    rw [List.count_cons_self] at htotal
    omega
  have hown : l.count (leader fallback l) = before.count (leader fallback l) + 1 := by
    rw [hcount, List.count_cons_self, hrest]
  refine ⟨⟨?_, fun y => ?_⟩, fun y hy hne => ?_⟩
  · exact List.count_pos_iff.mp (hown ▸ Nat.succ_pos _)
  · exact hown ▸ hreached ▸ hcounted.bound y
  · refine ⟨before ++ [leader fallback l], after, ?_, List.count_eq_zero.mp hrest, ?_⟩
    · rw [List.append_assoc, List.singleton_append, ← hsplit]
    · have hle := hy.2 (leader fallback l)
      have hlt := hbefore y
      have hothers := hcount y
      rw [List.count_cons_of_ne (Ne.symm hne)] at hothers
      exact List.count_pos_iff.mp (by omega)

/-- The leader is the first most frequent element exactly if that one stops occurring before the
other most frequent ones. -/
theorem firstMostFrequent_leader_iff (h : l ≠ []) : FirstMostFrequent l (leader fallback l) ↔
    ∀ x y, FirstMostFrequent l x → MostFrequent l y → y ≠ x → EndsBefore l x y := by
  have hspec : MostFrequent l (leader fallback l) ∧ ∀ y, MostFrequent l y →
      y ≠ leader fallback l → EndsBefore l (leader fallback l) y := leader_spec h
  obtain ⟨hmost, hends⟩ := hspec
  constructor
  · intro hleader x y hx hy hne
    obtain rfl := hx.unique hleader
    exact hends y hy hne
  · intro hcondition
    obtain ⟨first, hfirst⟩ := exists_firstMostFrequent hmost
    have hsame : first = leader fallback l := by
      by_contra hne
      exact (hends first hfirst.1 hne).asymm (hcondition first _ hfirst hmost (Ne.symm hne))
    exact hsame ▸ hfirst

end Chronicle.Library.Leader
