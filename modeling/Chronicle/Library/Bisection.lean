import Mathlib.Data.List.GetD
import Mathlib.Data.List.Pairwise
import Mathlib.Order.Lattice
import Mathlib.Order.Nat

/-!
# Bisection of an ordered list

A bisection halves a range of places until it is empty. On a list whose elements below the target
all come first it stops where they end, so it cuts the list as `takeWhile` and `dropWhile` do.
-/

namespace Chronicle.Library

variable {α : Type*}

/-- The loop of a bisection: `fuel` bounds the passes left, `fallback` is never read inside the
list. -/
def bisectFrom (below : α → Bool) (fallback : α) (values : List α) : Nat → Nat → Nat → Nat
  | 0, low, _ => low
  | fuel + 1, low, high =>
      if low < high then
        if below (values.getD ((low + high) / 2) fallback) then
          bisectFrom below fallback values fuel ((low + high) / 2 + 1) high
        else bisectFrom below fallback values fuel low ((low + high) / 2)
      else low

/-- The place where the elements below the target end; every pass shortens the range, so its
length bounds the number of passes. -/
def bisect (below : α → Bool) (fallback : α) (values : List α) : Nat :=
  bisectFrom below fallback values values.length 0 values.length

/-- The elements below the target come first. -/
def Partitioned (below : α → Bool) (values : List α) : Prop :=
  values.Pairwise fun x y => below y = true → below x = true

variable {below : α → Bool} {fallback : α} {values : List α} {low high : Nat}

theorem Partitioned.below_of_le (h : Partitioned below values) {i j : Nat} (hij : i ≤ j)
    (hj : j < values.length) (hbelow : below values[j] = true) : below values[i] = true := by
  rcases hij.eq_or_lt with rfl | hlt
  · exact hbelow
  · exact List.pairwise_iff_getElem.mp h i j (hlt.trans hj) hj hlt hbelow

/-- The elements before the range are below the target, those behind it are not. -/
structure Bracketed (below : α → Bool) (values : List α) (low high : Nat) : Prop where
  ordered : low ≤ high
  inside : high ≤ values.length
  before : ∀ i (hi : i < values.length), i < low → below values[i] = true
  behind : ∀ i (hi : i < values.length), high ≤ i → below values[i] = false

/-- With fuel for its range, the loop stops at a place with nothing left to decide. -/
theorem bracketed_bisectFrom (hpart : Partitioned below values) (fuel : Nat)
    (h : Bracketed below values low high) (hfuel : high - low ≤ fuel) :
    Bracketed below values (bisectFrom below fallback values fuel low high)
      (bisectFrom below fallback values fuel low high) := by
  induction fuel generalizing low high with
  | zero =>
      obtain rfl : low = high := le_antisymm h.ordered (by omega)
      exact h
  | succ fuel ih =>
      rw [bisectFrom]
      split
      · case isTrue hlt =>
          have hmiddle : (low + high) / 2 < values.length := by
            have hinside := h.inside
            omega
          rw [List.getD_eq_getElem _ _ hmiddle]
          split
          · case isTrue hbelow =>
              refine ih ⟨by omega, h.inside, fun i hi hlow => ?_, h.behind⟩ (by omega)
              exact hpart.below_of_le (Nat.lt_succ_iff.mp hlow) hmiddle hbelow
          · case isFalse hnot =>
              refine ih ⟨by omega, by omega, h.before, fun i hi hhigh => ?_⟩ (by omega)
              rw [← Bool.not_eq_true]
              exact fun hbelow => hnot (hpart.below_of_le hhigh hi hbelow)
      · case isFalse hge =>
          obtain rfl : low = high := le_antisymm h.ordered (by omega)
          exact h

theorem bracketed_bisect (hpart : Partitioned below values) :
    Bracketed below values (bisect below fallback values) (bisect below fallback values) :=
  bracketed_bisectFrom hpart values.length
    ⟨Nat.zero_le _, le_rfl, fun _ _ h => absurd h (Nat.not_lt_zero _),
      fun _ hi h => absurd (hi.trans_le h) (lt_irrefl _)⟩ le_rfl

theorem bisect_le_length (hpart : Partitioned below values) :
    bisect below fallback values ≤ values.length :=
  (bracketed_bisect hpart).inside

/-- Everything before the place found is below the target. -/
theorem below_of_mem_take_bisect (hpart : Partitioned below values) {x : α}
    (hx : x ∈ values.take (bisect below fallback values)) : below x = true := by
  obtain ⟨i, hi, rfl⟩ := List.mem_take_iff_getElem.mp hx
  obtain ⟨hplace, hinside⟩ := Nat.lt_min.mp hi
  exact (bracketed_bisect hpart).before i hinside hplace

/-- Nothing from the place found on is below the target. -/
theorem not_below_of_mem_drop_bisect (hpart : Partitioned below values) {x : α}
    (hx : x ∈ values.drop (bisect below fallback values)) : below x = false := by
  obtain ⟨i, hi, rfl⟩ := List.mem_drop_iff_getElem.mp hx
  have hplace : bisect below fallback values + i < values.length := by omega
  exact (bracketed_bisect hpart).behind _ hplace (Nat.le_add_right _ _)

/-- Of two targets the one that more elements are below ends no sooner. -/
theorem bisect_le_bisect {wider : α → Bool} {fallback' : α} (hpart : Partitioned below values)
    (hwider : Partitioned wider values) (h : ∀ x, below x = true → wider x = true) :
    bisect below fallback values ≤ bisect wider fallback' values := by
  by_contra hlt
  have hplace := not_le.mp hlt
  have hinside := hplace.trans_le (bisect_le_length hpart)
  have hbelow := h _ ((bracketed_bisect hpart).before _ hinside hplace)
  rw [(bracketed_bisect hwider).behind _ hinside le_rfl] at hbelow
  exact absurd hbelow Bool.false_ne_true

end Chronicle.Library
