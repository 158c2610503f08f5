import Chronicle.Library.Intervals

/-!
# Holes of a union of intervals

A hole is an interval between the first begin and the last end in which no interval lies. The
maximal holes are found by one walk in the order of the begins, which carries the greatest end so
far: intervals may nest and overlap.
-/

namespace Chronicle.Library.Intervals

variable {T : Type*} [LinearOrder T] {intervals : List (T × T)} {reach a b : T}

/-- An interval of positive length between a begin and an end that no interval reaches into. -/
structure Hole (intervals : List (T × T)) (a b : T) : Prop where
  positive : a < b
  after : ∃ i ∈ intervals, i.1 ≤ a
  before : ∃ i ∈ intervals, b ≤ i.2
  uncovered : ∀ t, a ≤ t → t < b → ¬Covers intervals t

/-- A hole that is a part of no other. -/
structure MaximalHole (intervals : List (T × T)) (a b : T) : Prop where
  hole : Hole intervals a b
  maximal : ∀ a' b', Hole intervals a' b' → a' ≤ a → b ≤ b' → a' = a ∧ b' = b

/-- No interval overlaps a hole. -/
theorem Hole.apart (h : Hole intervals a b) {i : T × T} (hi : i ∈ intervals)
    (hpositive : i.1 < i.2) : b ≤ i.1 ∨ i.2 ≤ a := by
  by_contra hoverlap
  obtain ⟨hbegin, hend⟩ := not_or.mp hoverlap
  have hlt := max_lt h.positive (not_le.mp hbegin)
  exact h.uncovered (max a i.1) (le_max_left _ _) hlt
    ⟨i, hi, le_max_right _ _, max_lt (not_le.mp hend) hpositive⟩

/-- The holes depend on which intervals there are, not on their order. -/
theorem hole_congr {intervals' : List (T × T)} (h : ∀ i, i ∈ intervals ↔ i ∈ intervals') :
    Hole intervals a b ↔ Hole intervals' a b := by
  have hcovers : ∀ t, Covers intervals t ↔ Covers intervals' t := fun t => by
    simp only [Covers, h]
  constructor
  · intro hole
    refine ⟨hole.positive, ?_, ?_, fun t ht ht' => (hcovers t).not.mp (hole.uncovered t ht ht')⟩
    · simpa only [h] using hole.after
    · simpa only [h] using hole.before
  · intro hole
    refine ⟨hole.positive, ?_, ?_, fun t ht ht' => (hcovers t).not.mpr (hole.uncovered t ht ht')⟩
    · simpa only [h] using hole.after
    · simpa only [h] using hole.before

theorem maximalHole_congr {intervals' : List (T × T)} (h : ∀ i, i ∈ intervals ↔ i ∈ intervals') :
    MaximalHole intervals a b ↔ MaximalHole intervals' a b := by
  constructor
  · intro hmaximal
    exact ⟨(hole_congr h).mp hmaximal.hole, fun a' b' hole =>
      hmaximal.maximal a' b' ((hole_congr h).mpr hole)⟩
  · intro hmaximal
    exact ⟨(hole_congr h).mpr hmaximal.hole, fun a' b' hole =>
      hmaximal.maximal a' b' ((hole_congr h).mp hole)⟩

/-- A hole that begins with an end and ends with a begin is a part of no other. -/
theorem Hole.maximal (h : Hole intervals a b) (hpositive : ∀ i ∈ intervals, i.1 < i.2)
    (hbegins : ∃ i ∈ intervals, i.2 = a) (hends : ∃ i ∈ intervals, i.1 = b) :
    MaximalHole intervals a b := by
  refine ⟨h, fun a' b' hother ha hb => ⟨?_, ?_⟩⟩
  · obtain ⟨i, hi, rfl⟩ := hbegins
    by_contra hne
    have hlt : a' < i.2 := lt_of_le_of_ne ha hne
    -- the interval that ends where the hole begins reaches into the other one
    refine hother.uncovered (max a' i.1) (le_max_left _ _) ?_
      ⟨i, hi, le_max_right _ _, max_lt hlt (hpositive i hi)⟩
    exact max_lt (hlt.trans (h.positive.trans_le hb)) ((hpositive i hi).trans (h.positive.trans_le hb))
  · obtain ⟨i, hi, rfl⟩ := hends
    by_contra hne
    have hlt : i.1 < b' := lt_of_le_of_ne hb (Ne.symm hne)
    exact hother.uncovered i.1 (ha.trans h.positive.le) hlt ⟨i, hi, le_rfl, hpositive i hi⟩

/-- The holes from the reach on. -/
def holesFrom (reach : T) : List (T × T) → List (T × T)
  | [] => []
  | i :: intervals =>
      (if reach < i.1 then [(reach, i.1)] else []) ++ holesFrom (max reach i.2) intervals

/-- The holes between intervals in the order of their begins. -/
def holes : List (T × T) → List (T × T)
  | [] => []
  | i :: intervals => holesFrom i.2 intervals

/-- Where a hole lies that the walk finds. -/
theorem mem_holesFrom (hsorted : intervals.Pairwise fun i j => i.1 ≤ j.1)
    (h : (a, b) ∈ holesFrom reach intervals) :
    reach ≤ a ∧ a < b ∧ (a = reach ∨ ∃ i ∈ intervals, i.2 = a) ∧ (∃ i ∈ intervals, i.1 = b) ∧
      ∀ t, a ≤ t → t < b → ¬Covers intervals t := by
  induction intervals generalizing reach with
  | nil => exact absurd h List.not_mem_nil
  | cons i intervals ih =>
      obtain ⟨hfirst, hrest⟩ := List.pairwise_cons.mp hsorted
      obtain h | h := List.mem_append.mp h
      · split at h
        · next hlt =>
            obtain ⟨rfl, rfl⟩ := Prod.mk.inj (List.mem_singleton.mp h)
            refine ⟨le_rfl, hlt, .inl rfl, ⟨i, List.mem_cons_self, rfl⟩, ?_⟩
            rintro t - ht ⟨j, hj, hbegin, -⟩
            obtain rfl | hj := List.mem_cons.mp hj
            · exact absurd hbegin ht.not_ge
            · exact absurd ((hfirst j hj).trans hbegin) ht.not_ge
        · exact absurd h List.not_mem_nil
      · obtain ⟨hreach, hpositive, hbegins, ⟨j, hj, hends⟩, huncovered⟩ := ih hrest h
        refine ⟨(le_max_left _ _).trans hreach, hpositive, ?_, ⟨j, List.mem_cons_of_mem i hj, hends⟩,
          ?_⟩
        · obtain hbegins | ⟨k, hk, hbegins⟩ := hbegins
          · obtain hmax | hmax := max_choice reach i.2
            · exact .inl (hbegins.trans hmax)
            · exact .inr ⟨i, List.mem_cons_self, (hbegins.trans hmax).symm⟩
          · exact .inr ⟨k, List.mem_cons_of_mem i hk, hbegins⟩
        · rintro t ht ht' ⟨k, hk, hbegin, hend⟩
          obtain rfl | hk := List.mem_cons.mp hk
          · exact absurd (((le_max_right _ _).trans hreach).trans ht) hend.not_ge
          · exact huncovered t ht ht' ⟨k, hk, hbegin, hend⟩

/-- Beyond the reach, what is not covered lies in a hole. -/
theorem covers_or_covers_holesFrom {t : T} (hreach : reach ≤ t) (hlast : ∃ i ∈ intervals, t < i.2) :
    Covers intervals t ∨ Covers (holesFrom reach intervals) t := by
  induction intervals generalizing reach with
  | nil =>
      obtain ⟨i, hi, -⟩ := hlast
      exact absurd hi List.not_mem_nil
  | cons i intervals ih =>
      rw [holesFrom, covers_append]
      by_cases hbegin : i.1 ≤ t
      · by_cases hend : t < i.2
        · exact .inl ⟨i, List.mem_cons_self, hbegin, hend⟩
        · obtain ⟨j, hj, hlast⟩ := hlast
          obtain rfl | hj := List.mem_cons.mp hj
          · exact absurd hlast hend
          · obtain ⟨k, hk, hcovered⟩ | hhole := ih (max_le hreach (not_lt.mp hend)) ⟨j, hj, hlast⟩
            · exact .inl ⟨k, List.mem_cons_of_mem i hk, hcovered⟩
            · exact .inr (.inr hhole)
      · have hlt : t < i.1 := not_le.mp hbegin
        rw [if_pos (hreach.trans_lt hlt)]
        exact .inr (.inl ⟨_, List.mem_singleton_self _, hreach, hlt⟩)

/-- The holes are found in order. -/
theorem inOrder_holesFrom (hsorted : intervals.Pairwise fun i j => i.1 ≤ j.1)
    (hpositive : ∀ i ∈ intervals, i.1 < i.2) : InOrder (holesFrom reach intervals) := by
  refine ⟨fun i hi => (mem_holesFrom hsorted hi).2.1, ?_⟩
  induction intervals generalizing reach with
  | nil => exact .nil
  | cons i intervals ih =>
      have hrest := (List.pairwise_cons.mp hsorted).2
      refine List.pairwise_append.mpr ⟨?_, ih hrest fun j hj => hpositive j (List.mem_cons_of_mem i hj),
        ?_⟩
      · split <;> simp
      · intro p hp q hq
        split at hp
        · obtain rfl := List.mem_singleton.mp hp
          have hreach := (mem_holesFrom hrest hq).1
          exact ((hpositive i List.mem_cons_self).le.trans (le_max_right _ _)).trans hreach
        · exact absurd hp List.not_mem_nil

/-- A hole that the walk finds begins where an interval ends, and ends where one begins. -/
theorem exists_ends_of_mem_holes (hsorted : intervals.Pairwise fun i j => i.1 ≤ j.1)
    (h : (a, b) ∈ holes intervals) :
    (∃ i ∈ intervals, i.2 = a) ∧ ∃ i ∈ intervals, i.1 = b := by
  cases intervals with
  | nil => exact absurd h List.not_mem_nil
  | cons first intervals =>
      obtain ⟨-, -, hbegins, ⟨j, hj, hends⟩, -⟩ := mem_holesFrom hsorted.of_cons h
      refine ⟨?_, j, List.mem_cons_of_mem first hj, hends⟩
      obtain rfl | ⟨k, hk, hbegins⟩ := hbegins
      · exact ⟨first, List.mem_cons_self, rfl⟩
      · exact ⟨k, List.mem_cons_of_mem first hk, hbegins⟩

theorem inOrder_holes (hsorted : intervals.Pairwise fun i j => i.1 ≤ j.1)
    (hpositive : ∀ i ∈ intervals, i.1 < i.2) : InOrder (holes intervals) := by
  cases intervals with
  | nil => exact ⟨nofun, .nil⟩
  | cons first intervals =>
      exact inOrder_holesFrom hsorted.of_cons fun i hi => hpositive i (List.mem_cons_of_mem first hi)

/-- The walk finds the maximal holes. -/
theorem mem_holes_iff (hsorted : intervals.Pairwise fun i j => i.1 ≤ j.1)
    (hpositive : ∀ i ∈ intervals, i.1 < i.2) :
    (a, b) ∈ holes intervals ↔ MaximalHole intervals a b := by
  cases intervals with
  | nil =>
      refine iff_of_false List.not_mem_nil fun h => ?_
      obtain ⟨i, hi, -⟩ := h.hole.after
      exact absurd hi List.not_mem_nil
  | cons first intervals =>
      obtain ⟨hfirst, hrest⟩ := List.pairwise_cons.mp hsorted
      have hfound : ∀ a b, (a, b) ∈ holesFrom first.2 intervals →
          MaximalHole (first :: intervals) a b := by
        intro a b h
        obtain ⟨hbegins, hends'⟩ := exists_ends_of_mem_holes hsorted h
        obtain ⟨hreach, hlt, -, ⟨j, hj, hends⟩, huncovered⟩ := mem_holesFrom hrest h
        have hlast := hpositive j (List.mem_cons_of_mem first hj)
        have hhole : Hole (first :: intervals) a b :=
          { positive := hlt
            after := ⟨first, List.mem_cons_self, ((hpositive first List.mem_cons_self).trans_le hreach).le⟩
            before := ⟨j, List.mem_cons_of_mem first hj, hends ▸ hlast.le⟩
            uncovered := by
              rintro t ht ht' ⟨k, hk, hbegin, hend⟩
              obtain rfl | hk := List.mem_cons.mp hk
              · exact absurd (hreach.trans ht) hend.not_ge
              · exact huncovered t ht ht' ⟨k, hk, hbegin, hend⟩ }
        exact hhole.maximal hpositive hbegins hends'
      refine ⟨hfound a b, fun h => ?_⟩
      -- where the maximal hole begins, the walk finds one, which reaches as far
      have hfar : first.2 ≤ a := by
        obtain ⟨i, hi, hbegin⟩ := h.hole.after
        have hbegin : first.1 ≤ a := by
          obtain rfl | hi := List.mem_cons.mp hi
          · exact hbegin
          · exact (hfirst i hi).trans hbegin
        by_contra hlt
        exact h.hole.uncovered a le_rfl h.hole.positive
          ⟨first, List.mem_cons_self, hbegin, not_le.mp hlt⟩
      have hlast : ∃ i ∈ intervals, a < i.2 := by
        obtain ⟨i, hi, hend⟩ := h.hole.before
        have hlt := h.hole.positive.trans_le hend
        obtain rfl | hi := List.mem_cons.mp hi
        · exact absurd hfar hlt.not_ge
        · exact ⟨i, hi, hlt⟩
      obtain ⟨i, hi, hcovered⟩ | ⟨⟨a', b'⟩, hmem, hbegin, hend⟩ := covers_or_covers_holesFrom hfar hlast
      · exact absurd ⟨i, List.mem_cons_of_mem first hi, hcovered⟩
          (h.hole.uncovered a le_rfl h.hole.positive)
      · have hfoundHole := hfound a' b' hmem
        obtain ⟨j, hj, rfl⟩ := (mem_holesFrom hrest hmem).2.2.2.1
        have hreaches : b ≤ j.1 := by
          by_contra hlt
          exact h.hole.uncovered j.1 hend.le (not_le.mp hlt)
            ⟨j, List.mem_cons_of_mem first hj, le_rfl, hpositive j (List.mem_cons_of_mem first hj)⟩
        obtain ⟨rfl, rfl⟩ := h.maximal a' j.1 hfoundHole.hole hbegin hreaches
        exact hmem

end Chronicle.Library.Intervals
