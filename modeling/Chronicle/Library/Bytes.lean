import Mathlib.Data.List.Basic
import Mathlib.Tactic.Ring

/-!
# Byte encodings

Little-endian numbers of a fixed width, and sequences of encodings of one width. Encodings of equal
width can be taken apart again.
-/

namespace Chronicle.Library.Bytes

/-- The lowest `width` bytes of a number, the lowest first. -/
def leBytes : Nat → Nat → List UInt8
  | 0, _ => []
  | width + 1, n => UInt8.ofNat (n % 256) :: leBytes width (n / 256)

/-- The number whose lowest bytes come first. -/
def leValue : List UInt8 → Nat
  | [] => 0
  | byte :: bytes => byte.toNat + 256 * leValue bytes

/-- The bytes of a text. -/
def utf8 (text : String) : List UInt8 := text.toList.flatMap String.utf8EncodeChar

/-- A digit below sixteen. -/
def hexDigit (n : Nat) : Char := if n < 10 then Char.ofNat (48 + n) else Char.ofNat (87 + n)

/-- `hex::encode` -/
def hexEncode (bytes : List UInt8) : String :=
  String.ofList (bytes.flatMap fun byte => [hexDigit (byte.toNat / 16), hexDigit (byte.toNat % 16)])

@[simp]
theorem length_leBytes (width n : Nat) : (leBytes width n).length = width := by
  induction width generalizing n with
  | zero => rfl
  | succ width ih => rw [leBytes, List.length_cons, ih]

/-- Numbers that fit are told apart. -/
theorem leBytes_inj {width n m : Nat} (hn : n < 256 ^ width) (hm : m < 256 ^ width)
    (h : leBytes width n = leBytes width m) : n = m := by
  induction width generalizing n m with
  | zero => rw [Nat.pow_zero] at hn hm; omega
  | succ width ih =>
      obtain ⟨hlow, hhigh⟩ := List.cons.inj h
      have hbyte : n % 256 = m % 256 := by
        have := congrArg UInt8.toNat hlow
        simpa using this
      have hrest : n / 256 = m / 256 := by
        refine ih ?_ ?_ hhigh
        · rw [Nat.div_lt_iff_lt_mul (by norm_num), ← Nat.pow_succ]
          exact hn
        · rw [Nat.div_lt_iff_lt_mul (by norm_num), ← Nat.pow_succ]
          exact hm
      omega

section Sequences

variable {α : Type} {encode : α → List UInt8} {width : Nat} {l l' : List α}

theorem length_flatMap_of_width (hwidth : ∀ x, (encode x).length = width) (l : List α) :
    (l.flatMap encode).length = l.length * width := by
  induction l with
  | nil => simp
  | cons x l ih => rw [List.flatMap_cons, List.length_append, hwidth, ih, List.length_cons]; ring

/-- Sequences of one length are told apart by the encodings of their elements. -/
theorem flatMap_inj (hwidth : ∀ x, (encode x).length = width) (hlength : l.length = l'.length)
    (hinj : ∀ x ∈ l, ∀ y ∈ l', encode x = encode y → x = y)
    (h : l.flatMap encode = l'.flatMap encode) : l = l' := by
  induction l generalizing l' with
  | nil => exact (List.eq_nil_of_length_eq_zero hlength.symm).symm
  | cons x l ih =>
      cases l' with
      | nil => exact absurd hlength (Nat.succ_ne_zero _)
      | cons y l' =>
          rw [List.flatMap_cons, List.flatMap_cons] at h
          obtain ⟨hhead, htail⟩ := List.append_inj h (by rw [hwidth, hwidth])
          have hrest := ih (Nat.succ.inj hlength) (fun a ha b hb =>
            hinj a (List.mem_cons_of_mem x ha) b (List.mem_cons_of_mem y hb)) htail
          rw [hinj x List.mem_cons_self y List.mem_cons_self hhead, hrest]

end Sequences

theorem hexDigit_inj : ∀ n < 16, ∀ m < 16, hexDigit n = hexDigit m → n = m := by decide

/-- Bytes are told apart by their hexadecimal digits. -/
theorem hexEncode_inj {first second : List UInt8} (h : hexEncode first = hexEncode second) :
    first = second := by
  replace h := String.ofList_injective h
  induction first generalizing second with
  | nil =>
      cases second with
      | nil => rfl
      | cons => cases h
  | cons byte first ih =>
      cases second with
      | nil => cases h
      | cons byte' second =>
          obtain ⟨hhigh, h⟩ := List.cons.inj h
          obtain ⟨hlow, h⟩ := List.cons.inj h
          have hbound := byte.toNat_lt
          have hbound' := byte'.toNat_lt
          have hhigh := hexDigit_inj _ (by omega) _ (by omega) hhigh
          have hlow := hexDigit_inj _ (by omega) _ (by omega) hlow
          rw [ih h, UInt8.toNat_inj.mp (by omega : byte.toNat = byte'.toNat)]

theorem length_hexEncode (bytes : List UInt8) :
    (hexEncode bytes).toList.length = 2 * bytes.length := by
  rw [hexEncode, String.toList_ofList]
  induction bytes with
  | nil => rfl
  | cons byte bytes ih =>
      rw [List.flatMap_cons, List.length_append, ih, List.length_cons, List.length_cons,
        List.length_cons, List.length_nil]
      omega

/-- A character has at most four bytes. -/
theorem length_utf8_le (text : String) : (utf8 text).length ≤ 4 * text.toList.length := by
  rw [utf8]
  induction text.toList with
  | nil => exact Nat.zero_le _
  | cons c chars ih =>
      have hsize := c.utf8Size_le_four
      rw [List.flatMap_cons, List.length_append, String.length_utf8EncodeChar, List.length_cons]
      omega

end Chronicle.Library.Bytes
