import Mathlib.Data.List.Count
import Mathlib.Data.List.Perm.Basic
import Mathlib.Order.Lattice

/-!
# Ranks in a row of distinct times

In a row of strictly increasing times an element stands at the index that counts the smaller times.
An element that is inserted where its time belongs keeps the row increasing, and moves exactly the
elements that come after it.
-/

namespace Chronicle.Library.Ranks

variable {α T : Type*} [LinearOrder T] {time : α → T} {xs ys : List α} {x y : α} {t : T}

/-- Strictly increasing times. -/
def Rising (time : α → T) (xs : List α) : Prop := xs.Pairwise fun x y => time x < time y

/-- How many elements come before a time. -/
def rank (time : α → T) (t : T) (xs : List α) : Nat := xs.countP fun x => time x < t

/-- The first index whose time is not before `t`: `partition_point`. -/
def partitionPoint (time : α → T) (t : T) (xs : List α) : Nat :=
  (xs.takeWhile fun x => time x < t).length

/-- The row with an element inserted where its time belongs. -/
def insertAt (time : α → T) (x : α) (xs : List α) : List α :=
  xs.insertIdx (partitionPoint time (time x) xs) x

theorem rank_perm (h : xs.Perm ys) : rank time t xs = rank time t ys := h.countP_eq _

theorem rank_cons (x : α) (xs : List α) :
    rank time t (x :: xs) = rank time t xs + if time x < t then 1 else 0 := by
  unfold rank
  rw [List.countP_cons]
  simp

/-- An element stands at the index of its rank. -/
theorem Rising.getElem?_rank (h : Rising time xs) (hx : x ∈ xs) :
    xs[rank time (time x) xs]? = some x := by
  induction xs with
  | nil => cases hx
  | cons y xs ih =>
    obtain ⟨hy, hrest⟩ := List.pairwise_cons.mp h
    rw [rank_cons]
    obtain rfl | hx := List.mem_cons.mp hx
    · have hzero : rank time (time x) xs = 0 :=
        List.countP_eq_zero.mpr fun z hz => by simpa using (hy z hz).le
      rw [hzero, if_neg (lt_irrefl _)]
      rfl
    · rw [if_pos (hy x hx), List.getElem?_cons_succ, ih hrest hx]

/-- From the rank of a time on, nothing comes before it. -/
theorem Rising.le_of_rank_le (h : Rising time xs) {i : Nat} (hi : rank time t xs ≤ i)
    (hx : xs[i]? = some x) : t ≤ time x := by
  induction xs generalizing i with
  | nil => cases hx
  | cons y xs ih =>
    obtain ⟨hy, hrest⟩ := List.pairwise_cons.mp h
    rw [rank_cons] at hi
    cases i with
    | zero =>
      obtain rfl := Option.some.inj hx
      by_contra hlt
      rw [if_pos (not_le.mp hlt)] at hi
      exact absurd hi (by omega)
    | succ i =>
      rw [List.getElem?_cons_succ] at hx
      by_cases hlt : time y < t
      · rw [if_pos hlt] at hi
        exact ih hrest (by omega) hx
      · exact (not_lt.mp hlt).trans (hy x (List.mem_of_getElem? hx)).le

theorem Rising.time_le (h : Rising time xs) {i j : Nat} (hij : i ≤ j) (hx : xs[i]? = some x)
    (hy : xs[j]? = some y) : time x ≤ time y := by
  obtain ⟨hi, rfl⟩ := List.getElem?_eq_some_iff.mp hx
  obtain ⟨hj, rfl⟩ := List.getElem?_eq_some_iff.mp hy
  obtain rfl | hlt := Nat.eq_or_lt_of_le hij
  · exact le_rfl
  · exact (List.pairwise_iff_getElem.mp h _ _ hi hj hlt).le

theorem Rising.rank_getElem? (h : Rising time xs) {i : Nat} (hx : xs[i]? = some x) :
    rank time (time x) xs = i := by
  have hat := h.getElem?_rank (List.mem_of_getElem? hx)
  obtain ⟨hi, rfl⟩ := List.getElem?_eq_some_iff.mp hx
  obtain ⟨hrank, heq⟩ := List.getElem?_eq_some_iff.mp hat
  obtain hlt | heq' | hlt := Nat.lt_trichotomy (rank time (time xs[i]) xs) i
  · exact absurd (List.pairwise_iff_getElem.mp h _ _ hrank hi hlt) (by rw [heq]; exact lt_irrefl _)
  · exact heq'
  · exact absurd (List.pairwise_iff_getElem.mp h _ _ hi hrank hlt) (by rw [heq]; exact lt_irrefl _)

/-! ## Insertion -/

theorem insertAt_cons (x y : α) (xs : List α) :
    insertAt time x (y :: xs) =
      if time y < time x then y :: insertAt time x xs else x :: y :: xs := by
  unfold insertAt partitionPoint
  by_cases hlt : time y < time x
  · simp [hlt]
  · simp [hlt]

theorem perm_insertAt (x : α) (xs : List α) : (insertAt time x xs).Perm (x :: xs) := by
  induction xs with
  | nil => exact List.Perm.refl _
  | cons y xs ih =>
    rw [insertAt_cons]
    split
    · exact (ih.cons y).trans (List.Perm.swap x y xs)
    · exact List.Perm.refl _

/-- An element of a new time keeps the row increasing. -/
theorem Rising.insertAt (h : Rising time xs) (hnew : ∀ y ∈ xs, time y ≠ time x) :
    Rising time (Ranks.insertAt time x xs) := by
  induction xs with
  | nil => exact List.pairwise_singleton _ _
  | cons y xs ih =>
    obtain ⟨hy, hrest⟩ := List.pairwise_cons.mp h
    obtain ⟨hnewy, hnew⟩ := List.forall_mem_cons.mp hnew
    rw [insertAt_cons]
    split
    · rename_i hlt
      refine List.pairwise_cons.mpr ⟨fun z hz => ?_, ih hrest hnew⟩
      obtain rfl | hz := List.mem_cons.mp ((perm_insertAt x xs).mem_iff.mp hz)
      · exact hlt
      · exact hy z hz
    · rename_i hlt
      have hxy : time x < time y := lt_of_le_of_ne (not_lt.mp hlt) (Ne.symm hnewy)
      refine List.pairwise_cons.mpr ⟨fun z hz => ?_, h⟩
      obtain rfl | hz := List.mem_cons.mp hz
      · exact hxy
      · exact hxy.trans (hy z hz)

theorem partitionPoint_cons (y : α) (xs : List α) :
    partitionPoint time t (y :: xs) = if time y < t then partitionPoint time t xs + 1 else 0 := by
  unfold partitionPoint
  by_cases hlt : time y < t <;> simp [hlt]

/-- When the first element that is not before `t` is not at `t`, no element is. -/
theorem Rising.forall_ne (h : Rising time xs) (hy : xs[partitionPoint time t xs]? = some y)
    (hne : time y ≠ t) : ∀ x ∈ xs, time x ≠ t := by
  induction xs with
  | nil => exact fun x hx => absurd hx List.not_mem_nil
  | cons z xs ih =>
    obtain ⟨hz, hrest⟩ := List.pairwise_cons.mp h
    rw [partitionPoint_cons] at hy
    split at hy
    · rename_i hlt
      exact List.forall_mem_cons.mpr ⟨hlt.ne, ih hrest hy⟩
    · rename_i hlt
      obtain rfl := Option.some.inj hy
      have hgt : t < time z := lt_of_le_of_ne (not_lt.mp hlt) (Ne.symm hne)
      exact List.forall_mem_cons.mpr ⟨hne, fun x hx => (hgt.trans (hz x hx)).ne'⟩

end Chronicle.Library.Ranks
