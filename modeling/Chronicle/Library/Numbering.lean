import Mathlib.Data.List.Nodup
import Mathlib.Data.List.Range
import Mathlib.Logic.Relation
import Mathlib.Order.Monotone.Basic

/-!
# Numbering by breaks

Places in a row are numbered from 0; the number goes up by one at every break. Two places share a
number exactly when no break lies between them, that is, when steps without a break lead from one to
the other.
-/

namespace Chronicle.Library.Numbering

/-- The number of a place: how many breaks lead up to it. -/
def number (breaks : Nat → Bool) (n : Nat) : Nat := (List.range n).countP fun m => breaks (m + 1)

variable {breaks breaks' : Nat → Bool} {m n : Nat}

@[simp]
theorem number_zero : number breaks 0 = 0 := rfl

theorem number_succ (breaks : Nat → Bool) (n : Nat) :
    number breaks (n + 1) = number breaks n + if breaks (n + 1) then 1 else 0 := by
  unfold number
  rw [List.range_succ, List.countP_append, List.countP_singleton]

section Chain

variable {α : Type*} [DecidableEq α] {order : List α}

omit [DecidableEq α] in
theorem idx_inj (hnodup : order.Nodup) {x : α} (hm : order[m]? = some x)
    (hn : order[n]? = some x) : m = n := by
  obtain ⟨hm', hmx⟩ := List.getElem?_eq_some_iff.mp hm
  obtain ⟨hn', hnx⟩ := List.getElem?_eq_some_iff.mp hn
  exact (List.Nodup.getElem_inj_iff hnodup).mp (hmx.trans hnx.symm)

end Chain

end Chronicle.Library.Numbering
