import Mathlib.Data.List.Pairwise
import Mathlib.Order.Lattice
import Mathlib.Order.Nat

/-!
# Uses of which one at a time is open

A pass over a sequence of instants opens a use at some of them and closes the open one, at the
instant it has come to or at an earlier one. The uses then follow one another: each ends no earlier
than it began and no later than the next one begins, and the only one left open is the last.
-/

namespace Chronicle.Library.OneOpen

variable {T β : Type*} [LinearOrder T]

/-- What holds of the uses opened before place `n`: `first` is where a closed use began, `ended`
when it ended, `current` the open one. -/
structure InOrder (time : Nat → T) (len : Nat) (first : β → Nat) (ended : β → T) (n : Nat)
    (starts : List Nat) (closed : List β) (current : Option Nat) : Prop where
  reached : ∀ s ∈ starts, s < n
  increasing : starts.Pairwise (· < ·)
  accounted : starts = closed.map first ++ current.toList
  forward : ∀ c ∈ closed, time (first c) ≤ ended c
  apart : closed.Pairwise fun c d => ended c ≤ time (first d)
  before : ∀ c ∈ closed, ∀ s ∈ current, ended c ≤ time s
  past : ∀ c ∈ closed, ∀ j, n ≤ j → j < len → ended c ≤ time j

variable {time : Nat → T} {len n : Nat} {first : β → Nat} {ended : β → T} {starts : List Nat}
  {closed : List β} {current : Option Nat}

theorem inOrder_nil : InOrder time len first ended 0 [] [] none where
  reached := by simp
  increasing := .nil
  accounted := rfl
  forward := by simp
  apart := .nil
  before := by simp
  past := by simp

/-- A place at which nothing opens or closes is passed. -/
theorem InOrder.pass (h : InOrder time len first ended n starts closed current) :
    InOrder time len first ended (n + 1) starts closed current :=
  { h with
    reached := fun s hs => Nat.lt_succ_of_lt (h.reached s hs)
    past := fun c hc j hj => h.past c hc j (Nat.le_of_succ_le hj) }

theorem InOrder.current_lt {s : Nat}
    (h : InOrder time len first ended n starts closed (some s)) : s < n :=
  h.reached s (by simp [h.accounted])

/-- The place opens a use. -/
theorem InOrder.start (h : InOrder time len first ended n starts closed none) (hn : n < len) :
    InOrder time len first ended (n + 1) (starts ++ [n]) closed (some n) where
  reached := fun s hs => by
    rcases List.mem_append.mp hs with hs | hs
    · exact Nat.lt_succ_of_lt (h.reached s hs)
    · exact List.mem_singleton.mp hs ▸ Nat.lt_succ_self n
  increasing := List.pairwise_append.mpr ⟨h.increasing, List.pairwise_singleton _ _,
    fun s hs _ hn => List.mem_singleton.mp hn ▸ h.reached s hs⟩
  accounted := by simp [h.accounted]
  forward := h.forward
  apart := h.apart
  before := fun c hc s hs => Option.mem_some.mp hs ▸ h.past c hc n le_rfl hn
  past := fun c hc j hj => h.past c hc j (Nat.le_of_succ_le hj)

/-- The open use is closed, at an instant between its beginning and all that is to come. -/
theorem InOrder.close {s : Nat} (h : InOrder time len first ended n starts closed (some s)) (c : β)
    (hfirst : first c = s) (hforward : time s ≤ ended c)
    (hpast : ∀ j, n ≤ j → j < len → ended c ≤ time j) :
    InOrder time len first ended n starts (closed ++ [c]) none where
  reached := h.reached
  increasing := h.increasing
  accounted := by simp [h.accounted, hfirst]
  forward := fun d hd => by
    rcases List.mem_append.mp hd with hd | hd
    · exact h.forward d hd
    · obtain rfl := List.mem_singleton.mp hd
      exact hfirst ▸ hforward
  apart := List.pairwise_append.mpr ⟨h.apart, List.pairwise_singleton _ _, fun d hd e he => by
    obtain rfl := List.mem_singleton.mp he
    exact hfirst ▸ h.before d hd s rfl⟩
  before := by simp
  past := fun d hd => by
    rcases List.mem_append.mp hd with hd | hd
    · exact h.past d hd
    · obtain rfl := List.mem_singleton.mp hd
      exact hpast

end Chronicle.Library.OneOpen
