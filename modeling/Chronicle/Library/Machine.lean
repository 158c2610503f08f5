import Mathlib.Order.Lattice

/-!
# Signed 64-bit arithmetic on integers

A signed 64-bit value is modelled by the integer it stands for. An operation first forms the exact
result and then wraps it, saturates it, or refuses it.
-/

namespace Chronicle.Library.Machine

/-- `i64::MIN`. -/
def i64Min : Int := -9223372036854775808

/-- `i64::MAX`. -/
def i64Max : Int := 9223372036854775807

/-- The value is representable. -/
def Fits64 (x : Int) : Prop := i64Min ≤ x ∧ x ≤ i64Max

instance (x : Int) : Decidable (Fits64 x) := inferInstanceAs (Decidable (_ ∧ _))

/-- Two's complement wrapping, as plain operators do in a release build. -/
def wrap64 (x : Int) : Int := (x + 9223372036854775808) % 18446744073709551616 - 9223372036854775808

/-- The nearest representable value, as the `saturating_` operations give. -/
def saturate64 (x : Int) : Int := max i64Min (min i64Max x)

/-- The exact value if it is representable, as the `checked_` operations give. -/
def checked64 (x : Int) : Option Int := if Fits64 x then some x else none

/-- `i64::abs`, which wraps at `i64::MIN`. -/
def wrapAbs64 (x : Int) : Int := wrap64 (max x (-x))

variable {x : Int}

theorem fits64_iff : Fits64 x ↔ -9223372036854775808 ≤ x ∧ x ≤ 9223372036854775807 := Iff.rfl

theorem wrap64_of_fits (h : Fits64 x) : wrap64 x = x := by
  rw [fits64_iff] at h
  unfold wrap64
  omega

theorem wrapAbs64_of_fits (h : Fits64 x) (hneg : Fits64 (-x)) : wrapAbs64 x = max x (-x) := by
  refine wrap64_of_fits ?_
  rw [fits64_iff] at h hneg ⊢
  omega

theorem wrap64_fits (x : Int) : Fits64 (wrap64 x) := by
  rw [fits64_iff]
  unfold wrap64
  omega

theorem checked64_eq_some {y : Int} : checked64 x = some y ↔ Fits64 x ∧ x = y := by
  unfold checked64
  split <;> simp_all

theorem saturate64_of_fits (h : Fits64 x) : saturate64 x = x := by
  rw [fits64_iff] at h
  unfold saturate64 i64Min i64Max
  omega

/-! ## Differences of instants -/

section Differences

variable {instants : Set Int} {a b : Int}

/-- A test gives the same answer for the wrapped difference as for the exact one. -/
def DecidesExactly (test : Int → Bool) (elapsed : Int) : Prop := test (wrap64 elapsed) = test elapsed

/-- No two of the instants are more than `i64::MAX` apart. -/
def Near (instants : Set Int) : Prop := ∀ a ∈ instants, ∀ b ∈ instants, a - b ≤ i64Max

theorem Near.fits (h : Near instants) (ha : a ∈ instants) (hb : b ∈ instants) : Fits64 (a - b) := by
  have hforth := h a ha b hb
  have hback := h b hb a ha
  rw [fits64_iff]
  unfold i64Max at hforth hback
  omega

theorem Near.decidesExactly (h : Near instants) (ha : a ∈ instants) (hb : b ∈ instants)
    (test : Int → Bool) : DecidesExactly test (a - b) :=
  congrArg test (wrap64_of_fits (h.fits ha hb))

/-- A difference out of range wraps to a negative one, which no threshold lets pass. -/
theorem le_of_decidesExactly {threshold : Int} (ha : Fits64 a) (hb : Fits64 b)
    (hpositive : 0 ≤ threshold) (hthreshold : threshold ≤ i64Max)
    (h : DecidesExactly (fun elapsed => threshold < elapsed) (a - b)) : a - b ≤ i64Max := by
  rw [fits64_iff] at ha hb
  by_contra hfar
  have hexact : threshold < a - b := by omega
  have hwrapped : ¬ threshold < wrap64 (a - b) := by
    unfold wrap64
    unfold i64Max at hfar
    omega
  simp [DecidesExactly, hexact, hwrapped] at h

end Differences

end Chronicle.Library.Machine
