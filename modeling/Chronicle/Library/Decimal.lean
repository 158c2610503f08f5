import Mathlib.Data.List.TakeWhile
import Mathlib.Data.Nat.Digits.Lemmas

/-!
# Decimal digits, the first one leading

A number is written as the list of its decimal digits. A product by a small factor is formed digit by
digit with a carry, and a power of ten divides the number exactly if it ends in that many zeros.
-/

namespace Chronicle.Library.Decimal

/-- The number that the digits stand for. -/
def value (digits : List ℕ) : ℕ := Nat.ofDigits 10 digits.reverse

/-- Every element is a decimal digit. -/
def Digits (digits : List ℕ) : Prop := ∀ digit ∈ digits, digit < 10

/-- The digits of `digits * factor + carry`, the last one leading in both lists. -/
def multiplyReversed (factor : ℕ) : List ℕ → ℕ → List ℕ
  | [], carry => Nat.digits 10 carry
  | digit :: digits, carry =>
      (digit * factor + carry) % 10 :: multiplyReversed factor digits ((digit * factor + carry) / 10)

/-- The number of zeros at the end. -/
def trailingZeros (digits : List ℕ) : ℕ := (digits.reverse.takeWhile (· = 0)).length

variable {digits more : List ℕ} {n : ℕ}

@[simp]
theorem value_nil : value [] = 0 := rfl

@[simp]
theorem value_singleton (digit : ℕ) : value [digit] = digit := by simp [value]

theorem value_append (digits more : List ℕ) :
    value (digits ++ more) = value digits * 10 ^ more.length + value more := by
  rw [value, List.reverse_append, Nat.ofDigits_append, List.length_reverse, value, value]
  ring

theorem value_cons (digit : ℕ) (digits : List ℕ) :
    value (digit :: digits) = digit * 10 ^ digits.length + value digits := by
  rw [← List.singleton_append, value_append, value_singleton]

theorem value_append_replicate_zero (digits : List ℕ) (n : ℕ) :
    value (digits ++ List.replicate n 0) = value digits * 10 ^ n := by
  have hzero : value (List.replicate n 0) = 0 := by simp [value]
  rw [value_append, List.length_replicate, hzero, Nat.add_zero]

/-- A leading digit other than zero makes the number as large as its length says. -/
theorem pow_le_value {digit : ℕ} (h : digit ≠ 0) (digits : List ℕ) :
    10 ^ digits.length ≤ value (digit :: digits) := by
  rw [value_cons]
  exact (Nat.le_mul_of_pos_left _ (Nat.pos_of_ne_zero h)).trans (Nat.le_add_right _ _)

theorem value_pos_of_getLast {digit : ℕ} (h : digits.getLast? = some digit) (hne : digit ≠ 0) :
    0 < value digits := by
  obtain ⟨front, rfl⟩ := List.getLast?_eq_some_iff.mp h
  rw [value_append, value_singleton]
  omega

/-- Reading the digits one by one. -/
theorem foldl_eq_value (digits : List ℕ) :
    digits.foldl (fun (n : Int) (digit : ℕ) => n * 10 + digit) 0 = value digits := by
  have hgeneral : ∀ n : Int, digits.foldl (fun (n : Int) (digit : ℕ) => n * 10 + digit) n =
      n * 10 ^ digits.length + value digits := by
    induction digits with
    | nil => simp
    | cons digit digits ih =>
        intro n
        rw [List.foldl_cons, ih, value_cons, List.length_cons]
        push_cast
        ring
  rw [hgeneral, zero_mul, zero_add]

/-- Leading zeros do not count. -/
theorem value_dropWhile_zero (digits : List ℕ) :
    value (digits.dropWhile (· = 0)) = value digits := by
  induction digits with
  | nil => rfl
  | cons digit digits ih =>
      rw [List.dropWhile_cons]
      split
      · rename_i hzero
        rw [ih, value_cons, of_decide_eq_true hzero, Nat.zero_mul, Nat.zero_add]
      · rfl

theorem ofDigits_multiplyReversed (factor : ℕ) (digits : List ℕ) (carry : ℕ) :
    Nat.ofDigits 10 (multiplyReversed factor digits carry) =
      Nat.ofDigits 10 digits * factor + carry := by
  induction digits generalizing carry with
  | nil => simp [multiplyReversed, Nat.ofDigits_digits]
  | cons digit digits ih =>
      have hdiv := Nat.mod_add_div (digit * factor + carry) 10
      rw [multiplyReversed, Nat.ofDigits_cons, Nat.ofDigits_cons, ih]
      calc (digit * factor + carry) % 10 +
            10 * (Nat.ofDigits 10 digits * factor + (digit * factor + carry) / 10)
          = (digit * factor + carry) % 10 + 10 * ((digit * factor + carry) / 10) +
              10 * Nat.ofDigits 10 digits * factor := by ring
        _ = (digit + 10 * Nat.ofDigits 10 digits) * factor + carry := by rw [hdiv]; ring

theorem digits_multiplyReversed (factor : ℕ) (digits : List ℕ) (carry : ℕ) :
    Digits (multiplyReversed factor digits carry) := by
  induction digits generalizing carry with
  | nil => exact fun digit hdigit => Nat.digits_lt_base (by norm_num) hdigit
  | cons digit digits ih =>
      intro other hother
      rcases List.mem_cons.mp hother with rfl | hother
      · exact Nat.mod_lt _ (by norm_num)
      · exact ih _ other hother

/-- A number other than zero is divisible by a power of ten exactly if it ends in so many zeros. -/
theorem pow_dvd_value_iff (h : Digits digits) (hpos : 0 < value digits) (n : ℕ) :
    10 ^ n ∣ value digits ↔ n ≤ trailingZeros digits := by
  unfold value trailingZeros at *
  have hreversed : ∀ digit ∈ digits.reverse, digit < 10 := fun digit hdigit =>
    h digit (List.mem_reverse.mp hdigit)
  generalize digits.reverse = reversed at *
  induction reversed generalizing n with
  | nil => exact absurd hpos (lt_irrefl 0)
  | cons digit rest ih =>
      cases n with
      | zero => simp
      | succ n =>
          rw [Nat.ofDigits_cons] at hpos ⊢
          rw [List.takeWhile_cons]
          split
          · rename_i hzero
            rw [of_decide_eq_true hzero, Nat.zero_add] at hpos ⊢
            rw [List.length_cons, Nat.succ_le_succ_iff, pow_succ', Nat.mul_dvd_mul_iff_left (by norm_num)]
            exact ih n (by omega) fun other hother => hreversed other (List.mem_cons_of_mem _ hother)
          · rename_i hdigit
            refine iff_of_false (fun hdvd => ?_) (by simp)
            have hten : 10 ∣ digit + 10 * Nat.ofDigits 10 rest :=
              (Dvd.intro_left (10 ^ n) (pow_succ 10 n).symm).trans hdvd
            have hlt := hreversed digit List.mem_cons_self
            have hne : digit ≠ 0 := by simpa using hdigit
            omega

/-- Dropping zeros at the end divides by their power of ten. -/
theorem value_take (hn : n ≤ trailingZeros digits) :
    value (digits.take (digits.length - n)) * 10 ^ n = value digits := by
  have hzeros : digits.drop (digits.length - n) = List.replicate n 0 := by
    have hprefix : digits.reverse.take n = List.replicate n 0 := by
      refine List.eq_replicate_iff.mpr ⟨?_, fun digit hdigit => ?_⟩
      · have hle : trailingZeros digits ≤ digits.reverse.length :=
          (List.takeWhile_prefix _).length_le
        rw [List.length_take, Nat.min_eq_left (hn.trans hle)]
      · have htake : digits.reverse.take n <+: digits.reverse.takeWhile (· = 0) :=
          List.prefix_of_prefix_length_le (List.take_prefix _ _) (List.takeWhile_prefix _)
            ((List.length_take_le _ _).trans hn)
        simpa using List.mem_takeWhile_imp (htake.subset hdigit)
    rw [List.take_reverse, List.reverse_eq_iff, List.reverse_replicate] at hprefix
    exact hprefix
  conv_rhs => rw [← List.take_append_drop (digits.length - n) digits, hzeros]
  rw [value_append_replicate_zero]

end Chronicle.Library.Decimal
