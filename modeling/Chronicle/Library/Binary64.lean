import Mathlib.Algebra.Order.Field.Power
import Mathlib.Data.Int.Log
import Mathlib.Data.Rat.Floor
import Mathlib.Tactic.Linarith
import Mathlib.Tactic.NormNum
import Mathlib.Tactic.Positivity
import Mathlib.Tactic.FieldSimp
import Chronicle.Library.Machine

/-!
# Binary64 numbers

A binary64 datum is an exact rational, a signed infinity, or not a number; the two zeros are one
datum. Results are rounded to the nearest representable value, ties to even. The operations are
addition, subtraction and scaling by a positive constant, in which no sign of a zero is ever seen,
comparison, and the conversions from and to integers.
-/

namespace Chronicle.Library

/-- A binary64 datum. -/
inductive Binary64 where
  | finite (value : ℚ)
  | infinity (negative : Bool)
  | nan
  deriving DecidableEq

namespace Binary64

open Machine

/-- The integer nearest to the rational, the even one of two equally near. -/
def roundTiesEven (x : ℚ) : ℤ :=
  if x - ⌊x⌋ < 1 / 2 then ⌊x⌋
  else if 1 / 2 < x - ⌊x⌋ then ⌊x⌋ + 1
  else if ⌊x⌋ % 2 = 0 then ⌊x⌋ else ⌊x⌋ + 1

/-- The exponent of the last binary digit that a value of this magnitude keeps: a significand has
53 digits, and no digit lies below `2 ^ (-1074)`. -/
def ulpExponent (x : ℚ) : ℤ := max (Int.log 2 |x| - 52) (-1074)

/-- The rational rounded to 53 significant binary digits, ties to even. -/
def nearest (x : ℚ) : ℚ := roundTiesEven (x / 2 ^ ulpExponent x) * 2 ^ ulpExponent x

/-- The datum an exact result is rounded to. -/
def ofRat (x : ℚ) : Binary64 :=
  if |nearest x| < 2 ^ (1024 : ℕ) then finite (nearest x) else infinity (decide (x < 0))

/-- `n as f64` -/
def ofInt (n : ℤ) : Binary64 := ofRat n

/-- `x + y` -/
protected def add : Binary64 → Binary64 → Binary64
  | finite x, finite y => ofRat (x + y)
  | infinity x, infinity y => if x = y then infinity x else nan
  | infinity x, finite _ => infinity x
  | finite _, infinity y => infinity y
  | _, _ => nan

/-- `-x` -/
protected def neg : Binary64 → Binary64
  | finite x => finite (-x)
  | infinity x => infinity (!x)
  | nan => nan

/-- `x - y` -/
protected def sub (x y : Binary64) : Binary64 := x.add y.neg

/-- `x.abs()` -/
protected def abs : Binary64 → Binary64
  | finite x => finite |x|
  | infinity _ => infinity false
  | nan => nan

/-- Multiplication by a positive finite constant. -/
def mulConst (x : Binary64) (c : ℚ) : Binary64 :=
  match x with
  | finite value => ofRat (value * c)
  | infinity negative => infinity negative
  | nan => nan

/-- Division by a positive finite constant. -/
def divConst (x : Binary64) (c : ℚ) : Binary64 :=
  match x with
  | finite value => ofRat (value / c)
  | infinity negative => infinity negative
  | nan => nan

/-- `x.is_finite()` -/
def isFinite : Binary64 → Bool
  | finite _ => true
  | _ => false

/-- `x < 0.0` -/
def isNegative : Binary64 → Bool
  | finite value => decide (value < 0)
  | infinity negative => negative
  | nan => false

/-- `x > 0.0` -/
def isPositive : Binary64 → Bool
  | finite value => decide (0 < value)
  | infinity negative => !negative
  | nan => false

/-- `x < y`; a datum that is not a number is not less than anything. -/
def lt : Binary64 → Binary64 → Bool
  | finite x, finite y => decide (x < y)
  | finite _, infinity negative => !negative
  | infinity negative, finite _ => negative
  | infinity x, infinity y => x && !y
  | _, _ => false

/-- `x == y`; a datum that is not a number equals nothing. -/
def eqIeee : Binary64 → Binary64 → Bool
  | finite x, finite y => decide (x = y)
  | infinity x, infinity y => x == y
  | _, _ => false

/-- `x >= y` -/
def ge (x y : Binary64) : Bool := lt y x || eqIeee x y

/-- `x.min(y)`, which passes over what is not a number. -/
protected def min (x y : Binary64) : Binary64 :=
  if x = nan then y else if lt y x then y else x

/-- The integer nearest to the rational, the one away from zero of two equally near. -/
def roundHalfAway (x : ℚ) : ℤ := if 0 ≤ x then ⌊x + 1 / 2⌋ else -⌊-x + 1 / 2⌋

/-- `x.round() as i64`, where the cast saturates and sends what is not a number to zero. -/
def roundToI64 : Binary64 → ℤ
  | finite value => saturate64 (roundHalfAway value)
  | infinity negative => if negative then i64Min else i64Max
  | nan => 0

/-- `x.ceil() as i64`, saturating, with zero for what is not a number. -/
def ceilToI64 : Binary64 → ℤ
  | finite value => saturate64 ⌈value⌉
  | infinity negative => if negative then i64Min else i64Max
  | nan => 0

/-- The integer part of the rational. -/
def truncate (x : ℚ) : ℤ := if 0 ≤ x then ⌊x⌋ else -⌊-x⌋

/-- `x as i64`, saturating, with zero for what is not a number. -/
def truncToI64 : Binary64 → ℤ
  | finite value => saturate64 (truncate value)
  | infinity negative => if negative then i64Min else i64Max
  | nan => 0

variable {x : ℚ}

/-! ## Rounding -/

theorem roundTiesEven_intCast (n : ℤ) : roundTiesEven n = n := by
  simp [roundTiesEven]

/-- Rounding moves a rational by at most one half. -/
theorem roundTiesEven_bounds (x : ℚ) :
    x - 1 / 2 ≤ roundTiesEven x ∧ (roundTiesEven x : ℚ) ≤ x + 1 / 2 := by
  have hfloor := Int.floor_le x
  have hceil := Int.lt_floor_add_one x
  unfold roundTiesEven
  split_ifs <;> push_cast <;> constructor <;> linarith

theorem ulp_pos (x : ℚ) : (0 : ℚ) < 2 ^ ulpExponent x := by positivity

/-- The rounded value is within half a unit in the last place. -/
theorem nearest_bounds (x : ℚ) :
    x - 2 ^ ulpExponent x / 2 ≤ nearest x ∧ nearest x ≤ x + 2 ^ ulpExponent x / 2 := by
  have hulp := ulp_pos x
  obtain ⟨hlower, hupper⟩ := roundTiesEven_bounds (x / 2 ^ ulpExponent x)
  have hcancel : x / 2 ^ ulpExponent x * 2 ^ ulpExponent x = x := div_mul_cancel₀ x hulp.ne'
  unfold nearest
  constructor
  · have := mul_le_mul_of_nonneg_right hlower hulp.le
    linarith
  · have := mul_le_mul_of_nonneg_right hupper hulp.le
    linarith

/-- Unless the value is below the smallest subnormal, the unit in the last place does not exceed
it. -/
theorem ulp_le_max (hne : x ≠ 0) : (2 : ℚ) ^ ulpExponent x ≤ max |x| (2 ^ (-1074 : ℤ)) := by
  unfold ulpExponent
  rcases le_total (Int.log 2 |x| - 52) (-1074) with hsmall | hlarge
  · rw [max_eq_right hsmall]
    exact le_max_right _ _
  · rw [max_eq_left hlarge]
    have hdigits : (2 : ℚ) ^ (Int.log 2 |x| - 52) ≤ 2 ^ Int.log 2 |x| :=
      zpow_le_zpow_right₀ (by norm_num) (sub_le_self _ (by norm_num))
    exact le_max_of_le_left
      (hdigits.trans (Int.zpow_log_le_self (by norm_num : 1 < 2) (abs_pos.mpr hne)))

/-- Rounding keeps nonnegative values nonnegative. -/
theorem nearest_nonneg (h : 0 ≤ x) : 0 ≤ nearest x := by
  have hulp := ulp_pos x
  have hquotient : 0 ≤ x / 2 ^ ulpExponent x := div_nonneg h hulp.le
  have hround := (roundTiesEven_bounds (x / 2 ^ ulpExponent x)).1
  have hhalf : (-1 : ℚ) < roundTiesEven (x / 2 ^ ulpExponent x) := by linarith
  have hint : -1 < roundTiesEven (x / 2 ^ ulpExponent x) := by exact_mod_cast hhalf
  have hnonneg : (0 : ℚ) ≤ roundTiesEven (x / 2 ^ ulpExponent x) := by
    exact_mod_cast (show 0 ≤ roundTiesEven (x / 2 ^ ulpExponent x) by omega)
  exact mul_nonneg hnonneg hulp.le

/-- Rounding keeps a negative value negative unless it is below the smallest subnormal. -/
theorem nearest_neg (h : x ≤ -2 ^ (-1074 : ℤ)) : nearest x < 0 := by
  have hsmallest : (0 : ℚ) < 2 ^ (-1074 : ℤ) := by positivity
  have habs : |x| = -x := abs_of_neg (by linarith)
  have hulp := ulp_le_max (x := x) (by linarith)
  rw [habs, max_eq_left (by linarith)] at hulp
  have hupper := (nearest_bounds x).2
  linarith

/-- A value of moderate size does not overflow. -/
theorem ofRat_finite (h : |x| ≤ 2 ^ (100 : ℕ)) : ofRat x = finite (nearest x) := by
  have hgrow : (2 : ℚ) ^ (101 : ℕ) < 2 ^ (1024 : ℕ) :=
    pow_lt_pow_right₀ one_lt_two (Nat.lt_of_sub_pos (Nat.succ_pos _))
  refine if_pos (lt_of_le_of_lt ?_ hgrow)
  rcases eq_or_ne x 0 with rfl | hne
  · simp [nearest, roundTiesEven]
  · have hone : (2 : ℚ) ^ (-1074 : ℤ) ≤ 1 :=
      zpow_le_one_of_nonpos₀ one_le_two (Int.negSucc_lt_zero _).le
    have hulp : (2 : ℚ) ^ ulpExponent x ≤ 2 ^ (100 : ℕ) :=
      (ulp_le_max hne).trans (max_le h (hone.trans (one_le_pow₀ one_le_two)))
    obtain ⟨hlower, hupper⟩ := nearest_bounds x
    obtain ⟨hneg, hpos⟩ := abs_le.mp h
    exact abs_le.mpr ⟨by linarith, by linarith⟩

/-- Rounding at most doubles a value of at least one. -/
theorem abs_nearest_le (x : ℚ) : |nearest x| ≤ 2 * max |x| 1 := by
  have habove : |x| ≤ max |x| 1 := le_max_left _ _
  rcases eq_or_ne x 0 with rfl | hne
  · simp [nearest, roundTiesEven]
  · have hone : (2 : ℚ) ^ (-1074 : ℤ) ≤ 1 :=
      zpow_le_one_of_nonpos₀ one_le_two (Int.negSucc_lt_zero _).le
    have hulp : (2 : ℚ) ^ ulpExponent x ≤ max |x| 1 :=
      (ulp_le_max hne).trans (max_le_max_left _ hone)
    have hpos := ulp_pos x
    obtain ⟨hlower, hupper⟩ := nearest_bounds x
    obtain ⟨hneg, hle⟩ := abs_le.mp habove
    exact abs_le.mpr ⟨by linarith, by linarith⟩

/-- An integer of 64 bits divided by a constant does not overflow. -/
theorem ofInt_divConst {n : ℤ} (hn : Fits64 n) {c : ℚ} (hc : 1 ≤ c) :
    (ofInt n).divConst c = finite (nearest (nearest n / c)) := by
  have habs : |(n : ℚ)| ≤ 2 ^ (63 : ℕ) := by
    have hint : |n| ≤ 9223372036854775808 := by
      rw [fits64_iff] at hn
      exact abs_le.mpr ⟨by omega, by omega⟩
    calc |(n : ℚ)| = ((|n| : ℤ) : ℚ) := by push_cast; rfl
      _ ≤ 9223372036854775808 := by exact_mod_cast hint
      _ = 2 ^ (63 : ℕ) := by norm_num
  have hgrow : ∀ m : ℕ, m ≤ 100 → (2 : ℚ) ^ m ≤ 2 ^ (100 : ℕ) :=
    fun m hm => pow_le_pow_right₀ one_le_two hm
  have hnearest : |nearest (n : ℚ)| ≤ 2 ^ (64 : ℕ) := by
    refine (abs_nearest_le _).trans ?_
    have hmax : max |(n : ℚ)| 1 ≤ 2 ^ (63 : ℕ) := max_le habs (by norm_num)
    calc 2 * max |(n : ℚ)| 1 ≤ 2 * 2 ^ (63 : ℕ) := by linarith
      _ = 2 ^ (64 : ℕ) := by norm_num
  have hquotient : |nearest (n : ℚ) / c| ≤ 2 ^ (64 : ℕ) := by
    rw [abs_div, abs_of_pos (show 0 < c by linarith)]
    exact (div_le_self (abs_nonneg _) hc).trans hnearest
  unfold ofInt
  rw [ofRat_finite (habs.trans (hgrow 63 (by norm_num)))]
  exact ofRat_finite (hquotient.trans (hgrow 64 (by norm_num)))

/-- A negative integer divided by a moderate constant stays negative. -/
theorem nearest_div_neg {n : ℤ} (hn : n < 0) {c : ℚ} (hc : 0 < c) (hmoderate : c ≤ 2 ^ (40 : ℕ)) :
    nearest (nearest n / c) < 0 := by
  have hcast : (n : ℚ) ≤ -1 := by exact_mod_cast (show n ≤ -1 by omega)
  have hsmallest : (2 : ℚ) ^ (-1074 : ℤ) ≤ 2 ^ (-41 : ℤ) :=
    zpow_le_zpow_right₀ one_le_two (by norm_num)
  have hhalf : nearest (n : ℚ) ≤ -1 / 2 := by
    have hulp := ulp_le_max (x := (n : ℚ)) (by linarith)
    have hone : (2 : ℚ) ^ (-41 : ℤ) ≤ 1 := by norm_num
    rw [abs_of_neg (by linarith), max_eq_left (by linarith)] at hulp
    have hupper := (nearest_bounds (n : ℚ)).2
    linarith
  refine nearest_neg ((div_le_iff₀ hc).mpr ?_)
  have hproduct : (2 : ℚ) ^ (-1074 : ℤ) * c ≤ 2 ^ (-41 : ℤ) * 2 ^ (40 : ℕ) :=
    mul_le_mul hsmallest hmoderate hc.le (by positivity)
  have hvalue : (2 : ℚ) ^ (-41 : ℤ) * 2 ^ (40 : ℕ) = 1 / 2 := by norm_num
  rw [hvalue] at hproduct
  calc nearest (n : ℚ) ≤ -(1 / 2) := by rwa [← neg_div]
    _ ≤ -(2 ^ (-1074 : ℤ) * c) := neg_le_neg hproduct
    _ = -2 ^ (-1074 : ℤ) * c := (neg_mul _ _).symm

/-- Integers of at most 53 binary digits are represented exactly. -/
theorem nearest_intCast {n : ℤ} (h : |n| < 2 ^ (53 : ℕ)) : nearest n = n := by
  rcases eq_or_ne n 0 with rfl | hne
  · simp [nearest, roundTiesEven]
  · have habs : (0 : ℚ) < |(n : ℚ)| := abs_pos.mpr (by exact_mod_cast hne)
    have hlog : Int.log 2 |(n : ℚ)| < 53 := by
      rw [Int.lt_zpow_iff_log_lt (by norm_num : 1 < 2) habs |>.symm]
      exact_mod_cast h
    have hexponent : ulpExponent (n : ℚ) ≤ 0 := by unfold ulpExponent; omega
    obtain ⟨k, hk⟩ := Int.eq_ofNat_of_zero_le (neg_nonneg.mpr hexponent)
    have hulp : ulpExponent (n : ℚ) = -k := by omega
    have hquotient : (n : ℚ) / 2 ^ ulpExponent (n : ℚ) = ((n * 2 ^ k : ℤ) : ℚ) := by
      rw [hulp, zpow_neg, zpow_natCast, div_inv_eq_mul]
      push_cast
      ring
    unfold nearest
    rw [hquotient, roundTiesEven_intCast, hulp, zpow_neg, zpow_natCast]
    push_cast
    field_simp

theorem ofRat_intCast {n : ℤ} (h : |n| < 2 ^ (53 : ℕ)) : ofRat n = finite n := by
  have hbound : |(n : ℚ)| ≤ 2 ^ (100 : ℕ) := by
    have hsmall : |(n : ℚ)| < 2 ^ (53 : ℕ) := by exact_mod_cast h
    have hgrow : (2 : ℚ) ^ (53 : ℕ) ≤ 2 ^ (100 : ℕ) :=
      pow_le_pow_right₀ (by norm_num) (by norm_num)
    exact hsmall.le.trans hgrow
  rw [ofRat_finite hbound, nearest_intCast h]

theorem eqIeee_self {y : Binary64} (h : y.isFinite = true) : eqIeee y y = true := by
  cases y with
  | finite value => simp [eqIeee]
  | infinity negative => simp [isFinite] at h
  | nan => simp [isFinite] at h

theorem eqIeee_comm (x y : Binary64) : eqIeee x y = eqIeee y x := by
  cases x with
  | finite x =>
      cases y with
      | finite y => exact decide_eq_decide.mpr eq_comm
      | _ => rfl
  | infinity x =>
      cases y with
      | infinity y => exact Bool.beq_comm
      | _ => rfl
  | nan => cases y <;> rfl

/-- Data that are equal are one datum, since the zeros are. -/
theorem eq_of_eqIeee {x y : Binary64} (h : eqIeee x y = true) : x = y := by
  cases x with
  | finite x =>
      cases y with
      | finite y => exact congrArg finite (of_decide_eq_true h)
      | _ => cases h
  | infinity x =>
      cases y with
      | infinity y => exact congrArg infinity (eq_of_beq h)
      | _ => cases h
  | nan => cases y <;> cases h

theorem roundHalfAway_intCast (n : ℤ) : roundHalfAway n = n := by
  have hhalf : ⌊(1 / 2 : ℚ)⌋ = 0 := by norm_num
  unfold roundHalfAway
  split
  · rw [Int.floor_intCast_add, hhalf, add_zero]
  · rw [← Int.cast_neg, Int.floor_intCast_add, hhalf, add_zero, neg_neg]

end Binary64

end Chronicle.Library
