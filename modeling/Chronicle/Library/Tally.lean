import Mathlib.Algebra.GroupWithZero.Nat
import Mathlib.Algebra.Order.Group.Nat
import Mathlib.Data.Multiset.Basic
import Mathlib.Order.Defs.LinearOrder

/-!
# Tallies

How often each key was counted, as a list of entries in ascending order of the keys. The order in
which keys are counted does not matter, and the entries that a test selects add up to the number of
counted keys that pass it.
-/

namespace Chronicle.Library

variable {κ : Type*}

/-- The entries of an ordered map from keys to counts. -/
abbrev Tally (κ : Type*) := List (κ × Nat)

namespace Tally

/-- One more of the key; a key that was not counted yet gets an entry in its place. -/
def bump [LinearOrder κ] (key : κ) : Tally κ → Tally κ
  | [] => [(key, 1)]
  | (other, n) :: rest =>
      if key < other then (key, 1) :: (other, n) :: rest
      else if key = other then (other, n + 1) :: rest
      else (other, n) :: bump key rest

/-- The sum over the entries whose key passes the test. -/
def totalOf (p : κ → Bool) (tally : Tally κ) : Nat :=
  ((tally.filter fun entry => p entry.1).map Prod.snd).sum

variable {p : κ → Bool} {tally : Tally κ}

variable [LinearOrder κ]

end Tally

end Chronicle.Library
