import Mathlib.Data.List.Basic

/-!
# Loops over a peekable iterator

A loop takes the items one by one; a pass may look at the item that comes next and take it too.
-/

namespace Chronicle.Library.Peekable

variable {α σ τ ε : Type}

/-- The state after an item, and whether the item that was peeked at is taken too. -/
abbrev Pass (α σ ε : Type) := σ → α → Option α → Except ε (σ × Bool)

/-- `while let Some(item) = items.next()`; after a pass that took two items one is passed over. -/
def loop (pass : Pass α σ ε) : Bool → σ → List α → Except ε σ
  | _, state, [] => .ok state
  | true, state, _ :: rest => loop pass false state rest
  | false, state, item :: rest =>
      match pass state item rest.head? with
      | .error error => .error error
      | .ok (next, taken) => loop pass taken next rest

section Steps

variable {pass : Pass α σ ε} {state next : σ} {item peeked : α} {rest : List α}

@[simp]
theorem loop_nil (taken : Bool) : loop pass taken state [] = .ok state := by
  cases taken <;> rfl

/-- A pass that takes one item. -/
theorem loop_one (h : pass state item rest.head? = .ok (next, false)) :
    loop pass false state (item :: rest) = loop pass false next rest := by
  rw [loop, h]

/-- A pass that takes two items. -/
theorem loop_two (h : pass state item (some peeked) = .ok (next, true)) :
    loop pass false state (item :: peeked :: rest) = loop pass false next rest := by
  rw [loop, List.head?_cons, h]
  rfl

end Steps

section Invariant

variable {P : List α → σ → List α → Prop} {pass : Pass α σ ε}

end Invariant

end Chronicle.Library.Peekable
