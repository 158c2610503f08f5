import Mathlib.Algebra.BigOperators.Group.List.Basic
import Mathlib.Algebra.Order.Group.Int
import Mathlib.Data.List.Pairwise
import Mathlib.Order.Lattice
import Mathlib.Tactic.Linarith

/-!
# Lists of half-open intervals

An interval is the pair of its ends and holds its lower end but not its upper one. A list of
intervals is apart when each has positive length and ends before the next begins. Two such lists
are intersected by one walk along both.
-/

namespace Chronicle.Library.Intervals

variable {T : Type*} [LinearOrder T]

/-- The point lies in one of the intervals. -/
def Covers (intervals : List (T × T)) (t : T) : Prop := ∃ i ∈ intervals, i.1 ≤ t ∧ t < i.2

/-- Between the two bounds, intervals of positive length, each ending before the next begins. -/
structure Apart (lower upper : T) (intervals : List (T × T)) : Prop where
  positive : ∀ i ∈ intervals, i.1 < i.2
  within : ∀ i ∈ intervals, lower ≤ i.1 ∧ i.2 ≤ upper
  separated : intervals.Pairwise fun i j => i.2 < j.1

/-- Intervals of positive length, none of which begins before an earlier one ends. -/
structure InOrder (intervals : List (T × T)) : Prop where
  positive : ∀ i ∈ intervals, i.1 < i.2
  disjoint : intervals.Pairwise fun i j => i.2 ≤ j.1

/-- The common part of two intervals, if it has positive length. -/
def common (i j : T × T) : List (T × T) :=
  if max i.1 j.1 < min i.2 j.2 then [(max i.1 j.1, min i.2 j.2)] else []

/-- The common part of two lists: of two intervals the one that ends first is left behind. -/
def intersect : List (T × T) → List (T × T) → List (T × T)
  | [], _ => []
  | _ :: _, [] => []
  | i :: left, j :: right =>
      if i.2 < j.2 then common i j ++ intersect left (j :: right)
      else common i j ++ intersect (i :: left) right
termination_by left right => left.length + right.length

variable {lower upper : T} {i j : T × T} {intervals left right : List (T × T)}

/-! ## Lists that are apart -/

theorem apart_nil : Apart lower upper ([] : List (T × T)) := ⟨by simp, by simp, .nil⟩

theorem apart_singleton (hlower : lower ≤ i.1) (hpositive : i.1 < i.2) (hupper : i.2 ≤ upper) :
    Apart lower upper [i] :=
  ⟨by simpa using hpositive, by simpa using ⟨hlower, hupper⟩, List.pairwise_singleton _ _⟩

theorem Apart.cons (h : Apart lower upper intervals) (hlower : lower ≤ i.1)
    (hpositive : i.1 < i.2) (hupper : i.2 ≤ upper) (hbefore : ∀ j ∈ intervals, i.2 < j.1) :
    Apart lower upper (i :: intervals) where
  positive := by simpa using ⟨hpositive, fun a b hab => h.positive (a, b) hab⟩
  within := by simpa using ⟨⟨hlower, hupper⟩, fun a b hab => h.within (a, b) hab⟩
  separated := List.pairwise_cons.mpr ⟨hbefore, h.separated⟩

theorem Apart.tail (h : Apart lower upper (i :: intervals)) : Apart lower upper intervals where
  positive := fun j hj => h.positive j (List.mem_cons_of_mem i hj)
  within := fun j hj => h.within j (List.mem_cons_of_mem i hj)
  separated := h.separated.of_cons

theorem Apart.weaken (h : Apart lower upper intervals) {lower' : T} (hle : lower' ≤ lower) :
    Apart lower' upper intervals :=
  { h with within := fun j hj => ⟨hle.trans (h.within j hj).1, (h.within j hj).2⟩ }

theorem Apart.before (h : Apart lower upper (i :: intervals)) (hj : j ∈ intervals) : i.2 < j.1 :=
  List.rel_of_pairwise_cons h.separated hj

theorem Apart.inOrder (h : Apart lower upper intervals) : InOrder intervals :=
  ⟨h.positive, h.separated.imp fun hlt => hlt.le⟩

theorem InOrder.tail (h : InOrder (i :: intervals)) : InOrder intervals :=
  ⟨fun j hj => h.positive j (List.mem_cons_of_mem i hj), h.disjoint.of_cons⟩

theorem InOrder.before (h : InOrder (i :: intervals)) (hj : j ∈ intervals) : i.2 ≤ j.1 :=
  List.rel_of_pairwise_cons h.disjoint hj

/-- No point after the first interval's end is lost when that interval is left behind. -/
theorem InOrder.covers_cons (h : InOrder (i :: intervals)) {t : T} :
    Covers (i :: intervals) t ↔ i.1 ≤ t ∧ t < i.2 ∨ i.2 ≤ t ∧ Covers intervals t := by
  unfold Covers
  constructor
  · rintro ⟨j, hj, hlower, hupper⟩
    rcases List.mem_cons.mp hj with rfl | hj
    · exact .inl ⟨hlower, hupper⟩
    · exact .inr ⟨(h.before hj).trans hlower, j, hj, hlower, hupper⟩
  · rintro (hholds | ⟨_, j, hj, hholds⟩)
    · exact ⟨i, List.mem_cons_self, hholds⟩
    · exact ⟨j, List.mem_cons_of_mem i hj, hholds⟩

/-! ## The intersection -/

theorem mem_common {p : T × T} :
    p ∈ common i j ↔ p = (max i.1 j.1, min i.2 j.2) ∧ p.1 < p.2 := by
  unfold common
  split
  · case isTrue h =>
      rw [List.mem_singleton]
      exact ⟨fun heq => ⟨heq, heq ▸ h⟩, fun heq => heq.1⟩
  · case isFalse h =>
      refine ⟨fun hp => absurd hp List.not_mem_nil, fun ⟨heq, hlt⟩ => absurd ?_ h⟩
      rw [heq] at hlt
      exact hlt

theorem covers_common {t : T} :
    Covers (common i j) t ↔ (i.1 ≤ t ∧ t < i.2) ∧ j.1 ≤ t ∧ t < j.2 := by
  unfold Covers
  constructor
  · rintro ⟨p, hp, hlower, hupper⟩
    obtain ⟨rfl, -⟩ := mem_common.mp hp
    rw [max_le_iff] at hlower
    rw [lt_min_iff] at hupper
    exact ⟨⟨hlower.1, hupper.1⟩, hlower.2, hupper.2⟩
  · rintro ⟨⟨hi, hi'⟩, hj, hj'⟩
    have hlower : max i.1 j.1 ≤ t := max_le hi hj
    have hupper : t < min i.2 j.2 := lt_min hi' hj'
    exact ⟨_, mem_common.mpr ⟨rfl, hlower.trans_lt hupper⟩, hlower, hupper⟩

theorem covers_append {t : T} : Covers (left ++ right) t ↔ Covers left t ∨ Covers right t := by
  simp only [Covers, List.mem_append, or_and_right, exists_or]

/-- Every interval of the intersection is the common part of one interval from each list. -/
theorem exists_of_mem_intersect {p : T × T} (hp : p ∈ intersect left right) :
    ∃ i ∈ left, ∃ j ∈ right, p = (max i.1 j.1, min i.2 j.2) ∧ p.1 < p.2 := by
  fun_induction intersect left right with
  | case1 | case2 => simp at hp
  | case3 i left j right hends ih =>
      rcases List.mem_append.mp hp with hp | hp
      · exact ⟨i, List.mem_cons_self, j, List.mem_cons_self, mem_common.mp hp⟩
      · obtain ⟨a, ha, b, hb, h⟩ := ih hp
        exact ⟨a, List.mem_cons_of_mem i ha, b, hb, h⟩
  | case4 i left j right hends ih =>
      rcases List.mem_append.mp hp with hp | hp
      · exact ⟨i, List.mem_cons_self, j, List.mem_cons_self, mem_common.mp hp⟩
      · obtain ⟨a, ha, b, hb, h⟩ := ih hp
        exact ⟨a, ha, b, List.mem_cons_of_mem j hb, h⟩

/-- The intersection of two lists that are apart is apart. -/
theorem Apart.intersect (hleft : Apart lower upper left) (hright : Apart lower upper right) :
    Apart lower upper (intersect left right) where
  positive := fun p hp => by
    obtain ⟨_, _, _, _, _, hpositive⟩ := exists_of_mem_intersect hp
    exact hpositive
  within := fun p hp => by
    obtain ⟨i, hi, j, hj, rfl, -⟩ := exists_of_mem_intersect hp
    exact ⟨(hleft.within i hi).1.trans (le_max_left _ _),
      (min_le_left _ _).trans (hleft.within i hi).2⟩
  separated := by
    fun_induction Intervals.intersect left right with
    | case1 | case2 => exact .nil
    | case3 i left j right hends ih =>
        refine List.pairwise_append.mpr ⟨?_, ih hleft.tail hright, fun p hp q hq => ?_⟩
        · unfold common
          split <;> simp
        · -- what is left of the first list lies beyond its first interval
          obtain ⟨rfl, -⟩ := mem_common.mp hp
          obtain ⟨a, ha, b, hb, rfl, -⟩ := exists_of_mem_intersect hq
          exact (min_le_left _ _).trans_lt ((hleft.before ha).trans_le (le_max_left _ _))
    | case4 i left j right hends ih =>
        refine List.pairwise_append.mpr ⟨?_, ih hleft hright.tail, fun p hp q hq => ?_⟩
        · unfold common
          split <;> simp
        · obtain ⟨rfl, -⟩ := mem_common.mp hp
          obtain ⟨a, ha, b, hb, rfl, -⟩ := exists_of_mem_intersect hq
          exact (min_le_right _ _).trans_lt ((hright.before hb).trans_le (le_max_right _ _))

/-- The intersection of two lists in order is in order. -/
theorem InOrder.intersect (hleft : InOrder left) (hright : InOrder right) :
    InOrder (intersect left right) where
  positive := fun p hp => by
    obtain ⟨_, _, _, _, _, hpositive⟩ := exists_of_mem_intersect hp
    exact hpositive
  disjoint := by
    fun_induction Intervals.intersect left right with
    | case1 | case2 => exact .nil
    | case3 i left j right hends ih =>
        refine List.pairwise_append.mpr ⟨?_, ih hleft.tail hright, fun p hp q hq => ?_⟩
        · unfold common
          split <;> simp
        · obtain ⟨rfl, -⟩ := mem_common.mp hp
          obtain ⟨a, ha, b, hb, rfl, -⟩ := exists_of_mem_intersect hq
          exact (min_le_left _ _).trans ((hleft.before ha).trans (le_max_left _ _))
    | case4 i left j right hends ih =>
        refine List.pairwise_append.mpr ⟨?_, ih hleft hright.tail, fun p hp q hq => ?_⟩
        · unfold common
          split <;> simp
        · obtain ⟨rfl, -⟩ := mem_common.mp hp
          obtain ⟨a, ha, b, hb, rfl, -⟩ := exists_of_mem_intersect hq
          exact (min_le_right _ _).trans ((hright.before hb).trans (le_max_right _ _))

/-- The intersection covers the points that both lists cover. -/
theorem InOrder.covers_intersect (hleft : InOrder left) (hright : InOrder right) {t : T} :
    Covers (Intervals.intersect left right) t ↔ Covers left t ∧ Covers right t := by
  fun_induction Intervals.intersect left right with
  | case1 => simp [Covers]
  | case2 => simp [Covers]
  | case3 i left j right hends ih =>
      rw [covers_append, covers_common, ih hleft.tail hright, hleft.covers_cons,
        hright.covers_cons]
      constructor
      · rintro (⟨hi, hj⟩ | ⟨hl, hr⟩)
        · exact ⟨.inl hi, .inl hj⟩
        · obtain ⟨a, ha, hlower, hupper⟩ := hl
          exact ⟨.inr ⟨(hleft.before ha).trans hlower, a, ha, hlower, hupper⟩, hr⟩
      · rintro ⟨hi | ⟨-, hl⟩, hr⟩
        · refine .inl ⟨hi, hr.resolve_right fun h => ?_⟩
          exact absurd (hi.2.trans hends) h.1.not_gt
        · exact .inr ⟨hl, hr⟩
  | case4 i left j right hends ih =>
      rw [covers_append, covers_common, ih hleft hright.tail, hleft.covers_cons,
        hright.covers_cons]
      constructor
      · rintro (⟨hi, hj⟩ | ⟨hl, hr⟩)
        · exact ⟨.inl hi, .inl hj⟩
        · obtain ⟨b, hb, hlower, hupper⟩ := hr
          exact ⟨hl, .inr ⟨(hright.before hb).trans hlower, b, hb, hlower, hupper⟩⟩
      · rintro ⟨hl, hj | ⟨-, hr⟩⟩
        · refine .inl ⟨hl.resolve_right fun h => ?_, hj⟩
          exact absurd (hj.2.trans_le (not_lt.mp hends)) h.1.not_gt
        · exact .inr ⟨hl, hr⟩

/-- The intersection covers the points that both lists cover. -/
theorem covers_intersect (hleft : Apart lower upper left) (hright : Apart lower upper right)
    {t : T} : Covers (intersect left right) t ↔ Covers left t ∧ Covers right t :=
  hleft.inOrder.covers_intersect hright.inOrder

/-! ## Total length -/

/-- The total length of intervals that are apart is at most the distance of the bounds. -/
theorem Apart.sum_le {lower upper : ℤ} {intervals : List (ℤ × ℤ)}
    (h : Apart lower upper intervals) (hle : lower ≤ upper) :
    (intervals.map fun i => i.2 - i.1).sum ≤ upper - lower := by
  induction intervals generalizing lower with
  | nil => simpa using hle
  | cons i intervals ih =>
      have hhead := h.within i List.mem_cons_self
      have hrest : Apart i.2 upper intervals :=
        { h.tail with within := fun j hj => ⟨(h.before hj).le, (h.tail.within j hj).2⟩ }
      have htail := ih hrest hhead.2
      rw [List.map_cons, List.sum_cons]
      linarith

end Chronicle.Library.Intervals
