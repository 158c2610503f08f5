import Chronicle.Library.Bytes

/-!
# Numbers of variable length

A number is written in groups of seven bits, the lowest group first, and every byte but the last one
has its highest bit set. A text is written as the number of its bytes and the bytes. Both are read
back whatever follows them.
-/

namespace Chronicle.Library.Varint

/-- The groups of a number, of which at most `width + 1` are written. -/
def groups : Nat → Nat → List UInt8
  | 0, n => [UInt8.ofNat n]
  | width + 1, n =>
      if n < 128 then [UInt8.ofNat n] else UInt8.ofNat (n % 128 + 128) :: groups width (n / 128)

/-- The number in groups; it has no more groups than units. -/
def write (n : Nat) : List UInt8 := groups n n

/-- The number at the front, and what follows it. -/
def read : List UInt8 → Option (Nat × List UInt8)
  | [] => none
  | byte :: bytes =>
      if byte.toNat < 128 then some (byte.toNat, bytes)
      else (read bytes).map fun (n, rest) => (byte.toNat - 128 + 128 * n, rest)

theorem read_groups {width n : Nat} (h : n < 128 ^ (width + 1)) (rest : List UInt8) :
    read (groups width n ++ rest) = some (n, rest) := by
  have hlast : ∀ n, n < 128 → read (UInt8.ofNat n :: rest) = some (n, rest) := by
    intro n hn
    have hbyte : (UInt8.ofNat n).toNat = n := by
      rw [UInt8.toNat_ofNat']
      omega
    rw [read, hbyte, if_pos hn]
  induction width generalizing n with
  | zero => exact hlast n (by simpa using h)
  | succ width ih =>
      rw [groups]
      split
      · rename_i hn
        exact hlast n hn
      · have hbyte : (UInt8.ofNat (n % 128 + 128)).toNat = n % 128 + 128 := by
          rw [UInt8.toNat_ofNat']
          omega
        have hquotient : n / 128 < 128 ^ (width + 1) := by
          rw [Nat.div_lt_iff_lt_mul (by norm_num), ← Nat.pow_succ]
          exact h
        rw [List.cons_append, read, hbyte, if_neg (by omega), ih hquotient]
        simp only [Option.map_some, Nat.add_sub_cancel, Nat.mod_add_div]

/-- A written number is read back. -/
theorem read_write (n : Nat) (rest : List UInt8) : read (write n ++ rest) = some (n, rest) := by
  refine read_groups ?_ rest
  calc n < 128 ^ n := Nat.lt_pow_self (by norm_num)
    _ ≤ 128 ^ (n + 1) := Nat.pow_le_pow_right (by norm_num) (Nat.le_succ n)

/-- A text with the number of its bytes in front. -/
def writeText (text : String) : List UInt8 :=
  write (Bytes.utf8 text).length ++ Bytes.utf8 text

/-- The text at the front, and what follows it. -/
def readText (bytes : List UInt8) : Option (String × List UInt8) :=
  (read bytes).bind fun (length, rest) =>
    if length ≤ rest.length then
      (rest.take length).toByteArray.utf8Decode?.map fun chars =>
        (String.ofList chars.toList, rest.drop length)
    else none

/-- A written text is read back. -/
theorem readText_writeText (text : String) (rest : List UInt8) :
    readText (writeText text ++ rest) = some (text, rest) := by
  have hbytes : (Bytes.utf8 text).toByteArray = text.toList.utf8Encode := rfl
  rw [readText, writeText, List.append_assoc, read_write, Option.bind_some]
  simp only [List.length_append, Nat.le_add_right, if_true, List.take_left, List.drop_left, hbytes,
    List.utf8Decode?_utf8Encode, Option.map_some, String.ofList_toList]

end Chronicle.Library.Varint
