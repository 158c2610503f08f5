import Mathlib.Data.List.Lex
import Chronicle.Library.Bytes

/-!
# UTF-16 code units

A character of the basic plane is one code unit, any other a pair of surrogates. The code units tell
texts apart, and for ASCII text they are the bytes.
-/

namespace Chronicle.Library.Utf16

open Chronicle.Library.Bytes

/-- `char::encode_utf16` -/
def charUnits (c : Char) : List Nat :=
  if c.toNat < 0x10000 then [c.toNat]
  else [0xD800 + (c.toNat - 0x10000) / 0x400, 0xDC00 + (c.toNat - 0x10000) % 0x400]

/-- The code units of a sequence of characters. -/
def units (chars : List Char) : List Nat := chars.flatMap charUnits

/-- `str::encode_utf16` -/
def utf16 (text : String) : List Nat := units text.toList

@[simp]
theorem units_nil : units [] = [] := rfl

@[simp]
theorem units_cons (c : Char) (chars : List Char) :
    units (c :: chars) = charUnits c ++ units chars := rfl

/-- A character is no surrogate. -/
theorem toNat_valid (c : Char) : c.toNat < 0xD800 ∨ 0xDFFF < c.toNat ∧ c.toNat < 0x110000 := c.valid

/-- No character's code units begin those of another. -/
theorem charUnits_append_inj {c d : Char} {x y : List Nat}
    (h : charUnits c ++ x = charUnits d ++ y) : c = d ∧ x = y := by
  have hc := toNat_valid c
  have hd := toNat_valid d
  unfold charUnits at h
  split at h <;> split at h
  · obtain ⟨hunit, hrest⟩ := List.cons.inj h
    exact ⟨Char.toNat_inj.mp hunit, hrest⟩
  · -- a unit of the basic plane is no high surrogate
    obtain ⟨hunit, -⟩ := List.cons.inj h
    omega
  · obtain ⟨hunit, -⟩ := List.cons.inj h
    omega
  · obtain ⟨hhigh, htail⟩ := List.cons.inj h
    obtain ⟨hlow, hrest⟩ := List.cons.inj htail
    exact ⟨Char.toNat_inj.mp (by omega), hrest⟩

theorem charUnits_ne_nil (c : Char) : charUnits c ≠ [] := by
  unfold charUnits
  split <;> exact List.cons_ne_nil _ _

theorem units_injective : Function.Injective units := by
  intro chars chars' h
  induction chars generalizing chars' with
  | nil =>
      cases chars' with
      | nil => rfl
      | cons d rest' =>
          have hnil : charUnits d ++ units rest' = [] := h.symm
          exact absurd (List.append_eq_nil_iff.mp hnil).1 (charUnits_ne_nil d)
  | cons c rest ih =>
      cases chars' with
      | nil => exact absurd (List.append_eq_nil_iff.mp h).1 (charUnits_ne_nil c)
      | cons d rest' =>
          obtain ⟨rfl, hrest⟩ := charUnits_append_inj h
          rw [ih hrest]

/-- The code units tell texts apart. -/
theorem utf16_injective : Function.Injective utf16 :=
  units_injective.comp fun _ _ h => String.toList_injective h

/-- `Iterator::cmp` of two sequences of code units -/
def compareUnits : List Nat → List Nat → Ordering
  | [], [] => .eq
  | [], _ :: _ => .lt
  | _ :: _, [] => .gt
  | a :: x, b :: y => if a < b then .lt else if b < a then .gt else compareUnits x y

theorem compareUnits_eq_gt {x y : List Nat} : compareUnits x y = .gt ↔ y < x := by
  fun_induction compareUnits x y with
  | case1 => simp
  | case2 => simp
  | case3 => simp
  | case4 a x b y hlt => simp [List.cons_lt_cons_iff, hlt.le, hlt.ne']
  | case5 a x b y _ hgt => simp [List.cons_lt_cons_iff, hgt]
  | case6 a x b y hlt hgt ih =>
      obtain rfl : a = b := by omega
      simp [ih]

theorem compareUnits_eq_eq {x y : List Nat} : compareUnits x y = .eq ↔ x = y := by
  fun_induction compareUnits x y with
  | case1 => simp
  | case2 => simp
  | case3 => simp
  | case4 a x b y hlt => simp [hlt.ne]
  | case5 a x b y _ hgt => simp [hgt.ne']
  | case6 a x b y hlt hgt ih =>
      obtain rfl : a = b := by omega
      simp [ih]

theorem compareUnits_ne_gt {x y : List Nat} : compareUnits x y ≠ .gt ↔ x ≤ y := by
  rw [ne_eq, compareUnits_eq_gt, not_lt]

/-! ## ASCII -/

theorem utf8EncodeChar_of_ascii {c : Char} (h : c.toNat < 128) :
    String.utf8EncodeChar c = [UInt8.ofNat c.toNat] := by
  have hsmall : c.val.toNat ≤ 0x7f := Nat.le_of_lt_succ h
  unfold String.utf8EncodeChar
  exact if_pos hsmall

/-- Only an ASCII character is encoded by bytes below 128. -/
theorem toNat_lt_of_encoded {c : Char} (h : ∀ byte ∈ String.utf8EncodeChar c, byte.toNat < 128) :
    c.toNat < 128 := by
  by_contra hlarge
  have hnot : ¬ c.val.toNat ≤ 0x7f := fun hsmall => hlarge (Nat.lt_succ_of_le hsmall)
  -- the first byte of a longer encoding has its highest bit set
  obtain ⟨n, hn, hmem⟩ : ∃ n, 128 ≤ n ∧ n < 256 ∧ UInt8.ofNat n ∈ String.utf8EncodeChar c := by
    unfold String.utf8EncodeChar
    dsimp only
    rw [if_neg hnot]
    split
    · exact ⟨_, by omega, by omega, List.mem_cons_self⟩
    · split
      · exact ⟨_, by omega, by omega, List.mem_cons_self⟩
      · exact ⟨_, by omega, by omega, List.mem_cons_self⟩
  have hbyte := h _ hmem.2
  rw [UInt8.toNat_ofNat', Nat.mod_eq_of_lt hmem.1] at hbyte
  omega

/-- The code units of an ASCII text are its bytes. -/
theorem units_eq_bytes {chars : List Char}
    (h : ∀ byte ∈ chars.flatMap String.utf8EncodeChar, byte.toNat < 128) :
    units chars = (chars.flatMap String.utf8EncodeChar).map UInt8.toNat := by
  induction chars with
  | nil => rfl
  | cons c rest ih =>
      rw [List.flatMap_cons] at h ⊢
      have hc := toNat_lt_of_encoded fun byte hbyte => h byte (List.mem_append_left _ hbyte)
      rw [units_cons, ih fun byte hbyte => h byte (List.mem_append_right _ hbyte), List.map_append,
        utf8EncodeChar_of_ascii hc, charUnits, if_pos (by omega)]
      have hbyte : (UInt8.ofNat c.toNat).toNat = c.toNat := by
        rw [UInt8.toNat_ofNat']
        omega
      simp only [List.map_cons, List.map_nil, hbyte]

end Chronicle.Library.Utf16
