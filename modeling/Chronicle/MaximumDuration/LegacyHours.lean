import Chronicle.Library.Decimal
import Chronicle.Library.Machine
import Mathlib.Algebra.Order.Field.Rat
import Mathlib.Tactic.FieldSimp
import Mathlib.Tactic.Linarith

/-!
# Legacy hours as nanoseconds

The legacy maximum is written in hours. It is turned into nanoseconds on its digits, of which there
may be any number, and refused if the product is not a whole number or does not fit 64 bits.
-/

namespace Chronicle.MaximumDuration

open Chronicle.Library Chronicle.Library.Decimal Chronicle.Library.Machine

/-- `MaximumDurationRefusalReason` -/
inductive MaximumDurationRefusalReason where
  | requestShapeInvalid
  | thresholdMalformed
  | policyIncompatibleWithReconstructionStrategy
  | adaptiveMaximumThresholdProviderUnavailable
  | legacyThresholdNonpositive
  | legacyThresholdNotIntegerNs
  | legacyThresholdOverflow
  | legacyThresholdBinary64MappingMismatch
  | legacyThresholdCanonicalizationMismatch
  | rawDurationUnrepresentable
  | effectiveEndpointUnrepresentable
  | duplicateTimestampAdjustmentUnrepresentable
deriving DecidableEq, Repr

/-- `strip_leading_zeros`; of zeros alone the last one stays. -/
def stripLeadingZeros (digits : List Nat) : List Nat :=
  match digits.dropWhile (· = 0) with
  | [] => digits.drop (digits.length - 1)
  | stripped => stripped

/-- `multiply_digits` -/
def multiplyDigits (digits : List Nat) (factor : Nat) : List Nat :=
  stripLeadingZeros (multiplyReversed factor digits.reverse 0).reverse

/-- The value of a decimal digit. -/
def digitOf (char : Char) : Nat := char.toNat - '0'.toNat

/-- `str::split_once` at the point; without one the fraction is empty. -/
def splitPoint (unsigned : List Char) : List Char × List Char :=
  (unsigned.takeWhile (· ≠ '.'), (unsigned.dropWhile (· ≠ '.')).tail)

/-- The spelling without its sign. -/
def stripSign : List Char → Bool × List Char
  | '-' :: rest => (true, rest)
  | chars => (false, chars)

def wellFormed (unsigned : List Char) : Bool :=
  let (integerDigits, fractionDigits) := splitPoint unsigned
  !integerDigits.isEmpty && integerDigits.all Char.isDigit && fractionDigits.all Char.isDigit &&
    (integerDigits == ['0'] || integerDigits.head? != some '0') &&
    fractionDigits.getLast? != some '0' && !(unsigned.contains '.' && fractionDigits.isEmpty)

/-- The digits of the coefficient times 3 600 000 000 000, over the power of ten of its scale. -/
def mantissaDigits (coefficient : List Nat) (scale : Nat) :
    Except MaximumDurationRefusalReason (List Nat) :=
  let product := multiplyDigits coefficient 36
  if scale > 11 then
    let drop := scale - 11
    if trailingZeros product < drop then .error .legacyThresholdNotIntegerNs
    else .ok (product.take (product.length - drop))
  else .ok (product ++ List.replicate (11 - scale) 0)

/-- The signed number of the digits, if it fits 64 bits. -/
def signedOf (negative : Bool) (digits : List Nat) : Except MaximumDurationRefusalReason Int :=
  let digits := stripLeadingZeros digits
  if digits.length > 19 then .error .legacyThresholdOverflow
  else
    let magnitude : Int := digits.foldl (fun (magnitude : Int) (digit : Nat) => magnitude * 10 + digit) 0
    let signed := if negative then -magnitude else magnitude
    if Fits64 signed then .ok signed else .error .legacyThresholdOverflow

/-- `exact_legacy_hours_to_ns` -/
def exactLegacyHoursToNs (canonicalHours : String) : Except MaximumDurationRefusalReason Int :=
  let (negative, unsigned) := stripSign canonicalHours.toList
  let (integerDigits, fractionDigits) := splitPoint unsigned
  if !wellFormed unsigned then .error .legacyThresholdCanonicalizationMismatch
  else do
    let digits ← mantissaDigits ((integerDigits ++ fractionDigits).map digitOf) fractionDigits.length
    signedOf negative digits

/-! ## Plain decimals -/

/-- A plain decimal in canonical form: no needless zero before the integer part or after the
fraction. -/
structure PlainDecimal where
  negative : Bool
  integer : List (Fin 10)
  fraction : List (Fin 10)
  nonempty : integer ≠ []
  noLeadingZero : integer = [0] ∨ integer.head? ≠ some 0
  noTrailingZero : fraction.getLast? ≠ some 0

/-- The character of a digit. -/
def digitChar (digit : Fin 10) : Char := Char.ofNat ('0'.toNat + digit)

/-- The spelling: a point stands only before a fraction. -/
def PlainDecimal.chars (decimal : PlainDecimal) : List Char :=
  (if decimal.negative then ['-'] else []) ++ decimal.integer.map digitChar ++
    if decimal.fraction = [] then [] else '.' :: decimal.fraction.map digitChar

/-- The exact value. -/
def PlainDecimal.value (decimal : PlainDecimal) : ℚ :=
  let magnitude : ℚ := Decimal.value (decimal.integer.map Fin.val) +
    Decimal.value (decimal.fraction.map Fin.val) / 10 ^ decimal.fraction.length
  if decimal.negative then -magnitude else magnitude

/-! ## The digits -/

section Digits

variable {digits : List Nat}

theorem value_stripLeadingZeros (digits : List Nat) :
    Decimal.value (stripLeadingZeros digits) = Decimal.value digits := by
  have hdrop := value_dropWhile_zero digits
  unfold stripLeadingZeros
  split
  · rename_i hzeros
    rw [hzeros, value_nil] at hdrop
    have hsplit := value_append (digits.take (digits.length - 1)) (digits.drop (digits.length - 1))
    rw [List.take_append_drop] at hsplit
    omega
  · exact hdrop

theorem stripLeadingZeros_suffix (digits : List Nat) : stripLeadingZeros digits <:+ digits := by
  unfold stripLeadingZeros
  split
  · exact List.drop_suffix _ _
  · exact List.dropWhile_suffix _

/-- Two digits or more do not begin with a zero. -/
theorem pow_le_of_length (h : 1 < (stripLeadingZeros digits).length) :
    10 ^ ((stripLeadingZeros digits).length - 1) ≤ Decimal.value digits := by
  rw [← value_stripLeadingZeros]
  unfold stripLeadingZeros at h ⊢
  split at h
  · rw [List.length_drop] at h
    omega
  · rename_i stripped hne
    cases hstripped : digits.dropWhile (· = 0) with
    | nil => exact absurd hstripped hne
    | cons digit rest =>
        have hdigit : digit ≠ 0 := by
          have hhead := List.head_dropWhile_not (fun digit : Nat => decide (digit = 0))
            (l := digits) (by rw [hstripped]; exact List.cons_ne_nil _ _)
          simpa [hstripped] using hhead
        exact pow_le_value hdigit rest

theorem value_multiplyDigits (digits : List Nat) (factor : Nat) :
    Decimal.value (multiplyDigits digits factor) = Decimal.value digits * factor := by
  rw [multiplyDigits, value_stripLeadingZeros, Decimal.value, List.reverse_reverse,
    ofDigits_multiplyReversed, Nat.add_zero, Decimal.value]

theorem digits_multiplyDigits (digits : List Nat) (factor : Nat) :
    Digits (multiplyDigits digits factor) := by
  intro digit hdigit
  have hmem := (stripLeadingZeros_suffix _).subset hdigit
  exact digits_multiplyReversed _ _ _ digit (List.mem_reverse.mp hmem)

/-- The mantissa is the exact quotient, if there is one. -/
theorem mantissaDigits_spec {coefficient : List Nat} {scale magnitude : Nat}
    (hpos : 11 < scale → 0 < Decimal.value coefficient) :
    (∃ digits, mantissaDigits coefficient scale = .ok digits ∧ Decimal.value digits = magnitude) ↔
      magnitude * 10 ^ scale = Decimal.value coefficient * 3600000000000 := by
  have hproduct := value_multiplyDigits coefficient 36
  have hdigits := digits_multiplyDigits coefficient 36
  unfold mantissaDigits
  simp only
  split
  · -- more than eleven decimals: the digits past them must be zeros
    rename_i hscale
    have hpow : 10 ^ scale = 10 ^ (scale - 11) * 10 ^ 11 := by
      rw [← pow_add]
      congr 1
      omega
    have hdvd := pow_dvd_value_iff hdigits (by rw [hproduct]; have := hpos hscale; omega)
      (scale - 11)
    have htarget : magnitude * 10 ^ scale = Decimal.value coefficient * 3600000000000 ↔
        magnitude * 10 ^ (scale - 11) = Decimal.value (multiplyDigits coefficient 36) := by
      have hfactor : Decimal.value coefficient * 3600000000000 =
          Decimal.value coefficient * 36 * 10 ^ 11 := by ring
      rw [hpow, ← mul_assoc, hfactor, hproduct]
      exact Nat.mul_left_inj (by norm_num)
    rw [htarget]
    split
    · rename_i hfew
      refine iff_of_false (by simp) fun heq => ?_
      exact absurd (hdvd.mp (Dvd.intro_left _ heq)) (not_le.mpr hfew)
    · rename_i henough
      have htake := value_take (not_lt.mp henough)
      simp only [Except.ok.injEq, exists_eq_left']
      rw [← htake]
      exact ⟨fun h => by rw [h], fun h => (Nat.eq_of_mul_eq_mul_right (by positivity) h).symm⟩
  · -- at most eleven decimals: the digits are filled up with zeros
    rename_i hscale
    have hpow : 10 ^ 11 = 10 ^ scale * 10 ^ (11 - scale) := by
      rw [← pow_add]
      congr 1
      omega
    simp only [Except.ok.injEq, exists_eq_left', value_append_replicate_zero, hproduct]
    have htarget : Decimal.value coefficient * 3600000000000 =
        Decimal.value coefficient * 36 * 10 ^ (11 - scale) * 10 ^ scale := by
      rw [mul_assoc (Decimal.value coefficient * 36), mul_comm (10 ^ (11 - scale)), ← hpow]
      ring
    rw [htarget]
    exact ⟨fun h => by rw [h], fun h => (Nat.eq_of_mul_eq_mul_right (by positivity) h).symm⟩

/-- Digits above the nineteenth stand for a number out of range. -/
theorem signedOf_eq_ok {negative : Bool} {n : Int} :
    signedOf negative digits = .ok n ↔
      n = (if negative then -(Decimal.value digits : Int) else Decimal.value digits) ∧
        Fits64 n := by
  unfold signedOf
  simp only [foldl_eq_value, value_stripLeadingZeros]
  split
  · rename_i hlong
    refine iff_of_false (by simp) ?_
    rintro ⟨rfl, hfits⟩
    have hbig : 10 ^ 19 ≤ Decimal.value digits :=
      (Nat.pow_le_pow_right (by norm_num) (by omega)).trans (pow_le_of_length (by omega))
    rw [fits64_iff] at hfits
    split at hfits
    · omega
    · omega
  · generalize (if negative then -(Decimal.value digits : Int) else Decimal.value digits) = signed
    split
    · rename_i hfits
      simp only [Except.ok.injEq]
      exact ⟨fun h => ⟨h.symm, h ▸ hfits⟩, fun h => h.1.symm⟩
    · rename_i hout
      refine iff_of_false (by simp) ?_
      rintro ⟨rfl, hfits⟩
      exact hout hfits

end Digits

/-! ## The spelling -/

section Spelling

variable {chars : List Char}

theorem isDigit_digitChar (digit : Fin 10) : (digitChar digit).isDigit = true := by
  revert digit
  decide

theorem digitOf_digitChar (digit : Fin 10) : digitOf (digitChar digit) = digit := by
  revert digit
  decide

theorem digitChar_eq_zero_iff (digit : Fin 10) : digitChar digit = '0' ↔ digit = 0 := by
  revert digit
  decide

theorem digitChar_ne (digit : Fin 10) : digitChar digit ≠ '.' ∧ digitChar digit ≠ '-' := by
  revert digit
  decide

theorem exists_digit {char : Char} (h : char.isDigit = true) : ∃ digit, digitChar digit = char := by
  have hrange : 48 ≤ char.toNat ∧ char.toNat ≤ 57 := by
    simpa [Char.isDigit, UInt32.le_iff_toNat_le] using h
  refine ⟨⟨char.toNat - 48, by omega⟩, ?_⟩
  rw [digitChar, show '0'.toNat + (char.toNat - 48) = char.toNat by
    show 48 + (char.toNat - 48) = char.toNat; omega]
  exact Char.ofNat_toNat char

theorem exists_digits (h : chars.all Char.isDigit = true) :
    ∃ digits : List (Fin 10), digits.map digitChar = chars := by
  induction chars with
  | nil => exact ⟨[], rfl⟩
  | cons char chars ih =>
      rw [List.all_cons, Bool.and_eq_true] at h
      obtain ⟨digit, rfl⟩ := exists_digit h.1
      obtain ⟨digits, rfl⟩ := ih h.2
      exact ⟨digit :: digits, rfl⟩

/-- The spelling after the sign. -/
def PlainDecimal.unsigned (decimal : PlainDecimal) : List Char :=
  decimal.integer.map digitChar ++
    if decimal.fraction = [] then [] else '.' :: decimal.fraction.map digitChar

theorem stripSign_chars (decimal : PlainDecimal) :
    stripSign decimal.chars = (decimal.negative, decimal.unsigned) := by
  rw [PlainDecimal.chars, List.append_assoc]
  cases hnegative : decimal.negative with
  | true => rfl
  | false =>
      obtain ⟨digit, rest, hinteger⟩ := List.exists_cons_of_ne_nil decimal.nonempty
      have hminus := (digitChar_ne digit).2
      simp only [Bool.false_eq_true, if_false, List.nil_append, PlainDecimal.unsigned, hinteger,
        List.map_cons, List.cons_append]
      unfold stripSign
      split
      · rename_i heq
        exact absurd (List.cons.inj heq).1 hminus
      · rfl

theorem splitPoint_unsigned (decimal : PlainDecimal) :
    splitPoint decimal.unsigned =
      (decimal.integer.map digitChar, decimal.fraction.map digitChar) := by
  have hinteger : ∀ char ∈ decimal.integer.map digitChar, decide (char ≠ '.') = true := by
    intro char hchar
    obtain ⟨digit, -, rfl⟩ := List.mem_map.mp hchar
    exact decide_eq_true (digitChar_ne digit).1
  rw [splitPoint, PlainDecimal.unsigned, List.takeWhile_append_of_pos hinteger,
    List.dropWhile_append_of_pos hinteger]
  split
  · rename_i hfraction
    simp [hfraction]
  · simp

theorem head?_map_digitChar (digits : List (Fin 10)) :
    (digits.map digitChar).head? = some '0' ↔ digits.head? = some 0 := by
  rw [List.head?_map, Option.map_eq_some_iff]
  simp only [digitChar_eq_zero_iff]
  exact ⟨fun ⟨_, hdigit, hzero⟩ => hzero ▸ hdigit, fun h => ⟨0, h, rfl⟩⟩

theorem map_digitChar_eq_zero (digits : List (Fin 10)) :
    digits.map digitChar = ['0'] ↔ digits = [0] := by
  rw [List.map_eq_singleton_iff]
  simp only [digitChar_eq_zero_iff]
  exact ⟨fun ⟨_, hdigits, hzero⟩ => hzero ▸ hdigits, fun h => ⟨0, h, rfl⟩⟩

/-- What the grammar asks of the parts of a spelling. -/
theorem wellFormed_iff {text : List Char} {integer fraction : List (Fin 10)}
    (hsplit : splitPoint text = (integer.map digitChar, fraction.map digitChar)) :
    wellFormed text = true ↔ integer ≠ [] ∧ (integer = [0] ∨ integer.head? ≠ some 0) ∧
      fraction.getLast? ≠ some 0 ∧ ('.' ∈ text → fraction ≠ []) := by
  have hdigits : ∀ digits : List (Fin 10), (digits.map digitChar).all Char.isDigit = true := by
    intro digits
    rw [List.all_map, List.all_eq_true]
    exact fun digit _ => isDigit_digitChar digit
  have hlast : (fraction.map digitChar).getLast? = some '0' ↔ fraction.getLast? = some 0 := by
    rw [← List.head?_reverse, ← List.map_reverse, head?_map_digitChar, List.head?_reverse]
  unfold wellFormed
  rw [hsplit]
  simp only [hdigits, Bool.and_true, Bool.and_eq_true, Bool.or_eq_true, Bool.not_eq_true',
    beq_iff_eq, bne_iff_ne, ne_eq, head?_map_digitChar, map_digitChar_eq_zero, hlast, and_assoc,
    List.isEmpty_eq_false_iff, List.map_eq_nil_iff, Bool.and_eq_false_imp, List.contains_iff_mem]

theorem wellFormed_unsigned (decimal : PlainDecimal) : wellFormed decimal.unsigned = true := by
  refine (wellFormed_iff (splitPoint_unsigned decimal)).mpr ⟨decimal.nonempty,
    decimal.noLeadingZero, decimal.noTrailingZero, fun hpoint hfraction => ?_⟩
  rw [PlainDecimal.unsigned, if_pos hfraction, List.append_nil] at hpoint
  obtain ⟨digit, -, hdigit⟩ := List.mem_map.mp hpoint
  exact (digitChar_ne digit).1 hdigit

/-- The parts of a spelling, put together again. -/
theorem splitPoint_eq {text integer fraction : List Char}
    (h : splitPoint text = (integer, fraction)) :
    text = integer ++ if '.' ∈ text then '.' :: fraction else [] := by
  obtain ⟨rfl, rfl⟩ := Prod.mk.inj h
  have hsplit := List.takeWhile_append_dropWhile (p := fun char => decide (char ≠ '.')) (l := text)
  split
  · rename_i hpoint
    cases hdrop : text.dropWhile (· ≠ '.') with
    | nil =>
        have hall := List.dropWhile_eq_nil_iff.mp hdrop '.' hpoint
        simp at hall
    | cons char rest =>
        -- what stops the walk is a point
        have hhead := List.head?_dropWhile_not (fun char => decide (char ≠ '.')) text
        rw [hdrop] at hhead
        have hchar : char = '.' := by simpa using hhead
        rw [hdrop, hchar] at hsplit
        exact hsplit.symm
  · rename_i hpoint
    rw [List.append_nil, eq_comm, List.takeWhile_eq_self_iff]
    exact fun char hchar => decide_eq_true fun heq => hpoint (heq ▸ hchar)

/-- A well-formed spelling is that of a plain decimal. -/
theorem exists_plainDecimal (negative : Bool) {text : List Char} (h : wellFormed text = true) :
    ∃ decimal : PlainDecimal, decimal.negative = negative ∧ decimal.unsigned = text := by
  have hparts := h
  rw [wellFormed] at hparts
  simp only [Bool.and_eq_true] at hparts
  obtain ⟨integer, hinteger⟩ := exists_digits hparts.1.1.1.1.2
  obtain ⟨fraction, hfraction⟩ := exists_digits hparts.1.1.1.2
  have hsplit : splitPoint text = (integer.map digitChar, fraction.map digitChar) := by
    rw [hinteger, hfraction]
  obtain ⟨hnonempty, hleading, htrailing, hpoint⟩ := (wellFormed_iff hsplit).mp h
  refine ⟨⟨negative, integer, fraction, hnonempty, hleading, htrailing⟩, rfl, ?_⟩
  have htext := splitPoint_eq hsplit
  rw [PlainDecimal.unsigned]
  conv_rhs => rw [htext]
  by_cases hin : '.' ∈ text
  · rw [if_pos hin, if_neg (hpoint hin)]
  · rw [if_neg hin]
    have hnone : fraction = [] := by
      have htail := congrArg Prod.snd hsplit
      have hdrop : text.dropWhile (· ≠ '.') = [] :=
        List.dropWhile_eq_nil_iff.mpr fun char hchar =>
          decide_eq_true fun heq => hin (heq ▸ hchar)
      rw [splitPoint, hdrop, List.tail_nil] at htail
      exact List.map_eq_nil_iff.mp htail.symm
    rw [if_pos hnone]

/-- The spelling without its sign, and the sign. -/
theorem chars_of_stripSign {text rest : List Char} {negative : Bool}
    (h : stripSign text = (negative, rest)) : text = (if negative then ['-'] else []) ++ rest := by
  unfold stripSign at h
  split at h
  · obtain ⟨rfl, rfl⟩ := Prod.mk.inj h
    rfl
  · obtain ⟨rfl, rfl⟩ := Prod.mk.inj h
    rfl

end Spelling

/-! ## The exact value -/

section Value

variable (decimal : PlainDecimal)

/-- The digits of the integer part and the fraction in one number. -/
def PlainDecimal.coefficient (decimal : PlainDecimal) : List Nat :=
  (decimal.integer ++ decimal.fraction).map Fin.val

theorem map_digitOf (digits : List (Fin 10)) :
    (digits.map digitChar).map digitOf = digits.map Fin.val := by
  rw [List.map_map]
  exact List.map_congr_left fun digit _ => digitOf_digitChar digit

theorem PlainDecimal.value_eq : decimal.value =
    (if decimal.negative then -1 else 1) *
      (Decimal.value decimal.coefficient / 10 ^ decimal.fraction.length : ℚ) := by
  have hpow : (10 : ℚ) ^ decimal.fraction.length ≠ 0 := by positivity
  rw [PlainDecimal.value, PlainDecimal.coefficient, List.map_append, value_append, List.length_map]
  push_cast
  rw [add_div, mul_div_cancel_right₀ _ hpow]
  split
  · ring
  · ring

/-- The value is a whole number of nanoseconds if the power of ten divides the product. -/
theorem PlainDecimal.value_mul_eq_iff {n : Int} :
    decimal.value * 3600000000000 = n ↔ ∃ magnitude : Nat,
      magnitude * 10 ^ decimal.fraction.length =
        Decimal.value decimal.coefficient * 3600000000000 ∧
      n = if decimal.negative then -(magnitude : Int) else magnitude := by
  have hpow : (0 : ℚ) < 10 ^ decimal.fraction.length := by positivity
  rw [decimal.value_eq]
  generalize Decimal.value decimal.coefficient = coefficient
  have hnonneg : (0 : ℚ) ≤ coefficient / 10 ^ decimal.fraction.length * 3600000000000 :=
    mul_nonneg (div_nonneg (Nat.cast_nonneg _) hpow.le) (by norm_num)
  constructor
  · intro h
    refine ⟨n.natAbs, ?_, ?_⟩
    · -- the absolute value is the product without its sign
      have habs : ((n.natAbs : ℕ) : ℚ) =
          coefficient / 10 ^ decimal.fraction.length * 3600000000000 := by
        rw [Nat.cast_natAbs, Int.cast_abs, ← h]
        split
        · rw [neg_one_mul, neg_mul, abs_neg, abs_of_nonneg hnonneg]
        · rw [one_mul, abs_of_nonneg hnonneg]
      have hcast : (n.natAbs : ℚ) * 10 ^ decimal.fraction.length = coefficient * 3600000000000 := by
        rw [habs]
        field_simp
      exact_mod_cast hcast
    · split
      · rename_i hnegative
        have hle : (n : ℚ) ≤ 0 := by
          rw [← h, if_pos hnegative]
          linarith
        have hsign : n ≤ 0 := by exact_mod_cast hle
        omega
      · rename_i hpositive
        have hle : (0 : ℚ) ≤ n := by
          rw [← h, if_neg hpositive]
          linarith
        have hsign : 0 ≤ n := by exact_mod_cast hle
        omega
  · rintro ⟨magnitude, hmagnitude, rfl⟩
    have hcast : (magnitude : ℚ) * 10 ^ decimal.fraction.length = coefficient * 3600000000000 := by
      exact_mod_cast hmagnitude
    have hdiv : (coefficient : ℚ) / 10 ^ decimal.fraction.length * 3600000000000 = magnitude := by
      rw [div_mul_eq_mul_div, ← hcast, mul_div_cancel_right₀ _ hpow.ne']
    split
    · push_cast
      rw [← hdiv]
      ring
    · push_cast
      rw [← hdiv]
      ring

/-- A fraction ends in a digit other than zero, so the coefficient is positive. -/
theorem PlainDecimal.coefficient_pos (h : decimal.fraction ≠ []) :
    0 < Decimal.value decimal.coefficient := by
  have hlast := List.getLast?_eq_some_getLast h
  have hne : decimal.fraction.getLast h ≠ 0 := fun hzero =>
    decimal.noTrailingZero (hzero ▸ hlast)
  have hcoefficient : decimal.coefficient.getLast? = some (decimal.fraction.getLast h).val := by
    rw [PlainDecimal.coefficient, List.map_append, List.getLast?_append, List.getLast?_map, hlast]
    rfl
  exact value_pos_of_getLast hcoefficient fun hzero => hne (Fin.ext hzero)

end Value

/-- The conversion of a canonical spelling. -/
theorem exactLegacyHoursToNs_chars {canonicalHours : String} {decimal : PlainDecimal} {n : Int}
    (h : canonicalHours.toList = decimal.chars) :
    exactLegacyHoursToNs canonicalHours = .ok n ↔
      decimal.value * 3600000000000 = n ∧ Fits64 n := by
  have hpos : 11 < decimal.fraction.length → 0 < Decimal.value decimal.coefficient := by
    intro hscale
    exact decimal.coefficient_pos (List.ne_nil_of_length_pos (by omega))
  rw [exactLegacyHoursToNs, h, stripSign_chars]
  simp only [splitPoint_unsigned, wellFormed_unsigned, Bool.not_true, Bool.false_eq_true, if_false,
    ← List.map_append, map_digitOf, List.length_map]
  show (mantissaDigits decimal.coefficient decimal.fraction.length).bind _ = _ ↔ _
  rw [decimal.value_mul_eq_iff]
  constructor
  · intro hok
    cases hmantissa : mantissaDigits decimal.coefficient decimal.fraction.length with
    | error reason =>
        rw [hmantissa] at hok
        exact absurd hok (by simp [Except.bind])
    | ok digits =>
        rw [hmantissa] at hok
        obtain ⟨hn, hfits⟩ := signedOf_eq_ok.mp hok
        exact ⟨⟨_, (mantissaDigits_spec hpos).mp ⟨digits, hmantissa, rfl⟩, hn⟩, hfits⟩
  · rintro ⟨⟨magnitude, hmagnitude, hn⟩, hfits⟩
    obtain ⟨digits, hmantissa, rfl⟩ := (mantissaDigits_spec hpos).mpr hmagnitude
    rw [hmantissa]
    exact signedOf_eq_ok.mpr ⟨hn, hfits⟩

/-- Hours are converted exactly if they are written as a canonical plain decimal and their
nanoseconds are a whole number that fits 64 bits. -/
theorem exact_legacy_hours_to_ns_iff (canonicalHours : String) (n : Int) :
    exactLegacyHoursToNs canonicalHours = .ok n ↔
      ∃ decimal : PlainDecimal, canonicalHours.toList = decimal.chars ∧
        decimal.value * 3600000000000 = n ∧ Fits64 n := by
  constructor
  · intro h
    have hsign := chars_of_stripSign (Prod.mk.eta (p := stripSign canonicalHours.toList)).symm
    have hwell : wellFormed (stripSign canonicalHours.toList).2 = true := by
      by_contra hmalformed
      rw [exactLegacyHoursToNs] at h
      simp [hmalformed] at h
    obtain ⟨decimal, hnegative, hunsigned⟩ :=
      exists_plainDecimal (stripSign canonicalHours.toList).1 hwell
    have hchars : canonicalHours.toList = decimal.chars := by
      rw [hsign, ← hnegative, ← hunsigned, PlainDecimal.chars, PlainDecimal.unsigned,
        List.append_assoc]
    exact ⟨decimal, hchars, (exactLegacyHoursToNs_chars hchars).mp h⟩
  · rintro ⟨decimal, hchars, hvalue⟩
    exact (exactLegacyHoursToNs_chars hchars).mpr hvalue

example : exactLegacyHoursToNs "0.0000000000005" = .error .legacyThresholdNotIntegerNs := by
  decide +kernel

end Chronicle.MaximumDuration
