import Chronicle.Jcs.Formatter

/-!
# Serialized keys

A serialized key can be read back, and two of them compare as the UTF-16 code units of their texts,
whether the formatter compares their bytes or their texts.
-/

namespace Chronicle.Jcs

open Chronicle.Library Chronicle.Library.Bytes Chronicle.Library.Utf16

/-- The bytes between the quotes of a canonical text. -/
def inner (text : String) : Bytes :=
  (text.toList.flatMap canonicalChar).flatMap String.utf8EncodeChar

theorem canonicalString_eq (text : String) :
    canonicalString text = utf8 "\"" ++ inner text ++ utf8 "\"" := by
  unfold canonicalString quoted inner
  rw [List.flatMap_cons, List.flatMap_append, ← List.append_assoc]
  rfl

theorem slice_append_middle (before middle after : Bytes) :
    slice (before ++ middle ++ after) (before.length, before.length + middle.length) = middle := by
  unfold slice
  dsimp only
  rw [List.append_assoc, List.drop_left, Nat.add_sub_cancel_left, List.take_left]

theorem unquoted_canonicalString (text : String) :
    unquoted (canonicalString text) = inner text := by
  have hquote : utf8 "\"" = [34] := by decide
  rw [canonicalString_eq, hquote]
  have hlength : ([34] ++ inner text ++ [34]).length - 1 = 1 + (inner text).length := by
    rw [List.length_append, List.length_append, List.length_singleton]
    omega
  rw [unquoted, hlength]
  exact slice_append_middle [34] (inner text) [34]

theorem fromUtf8_utf8 (text : String) : fromUtf8 (utf8 text) = some text := by
  have hbytes : (utf8 text).toByteArray = text.toByteArray := by
    conv_rhs => rw [← String.ofList_toList (s := text), String.toByteArray_ofList]
    rfl
  rw [fromUtf8, hbytes, String.fromUTF8?, dif_pos text.isValidUTF8]
  rfl

/-- A character that is not written as itself is written with a backslash in front. -/
theorem canonicalChar_cases (c : Char) :
    canonicalChar c = [c] ∨ ∃ rest, canonicalChar c = '\\' :: rest := by
  unfold canonicalChar
  repeat' split
  all_goals first
    | exact Or.inr ⟨_, rfl⟩
    | exact Or.inl rfl

/-- Without a backslash the bytes between the quotes are those of the text. -/
theorem inner_eq_utf8 {text : String} (h : (inner text).any isBackslash = false) :
    inner text = utf8 text := by
  have hbackslash : String.utf8EncodeChar '\\' = [92] := by decide
  have hchars : ∀ c ∈ text.toList, canonicalChar c = [c] := by
    intro c hc
    rcases canonicalChar_cases c with hself | ⟨rest, hescaped⟩
    · exact hself
    · have hmem : (92 : UInt8) ∈ inner text := by
        refine List.mem_flatMap.mpr ⟨'\\', List.mem_flatMap.mpr ⟨c, hc, ?_⟩, ?_⟩
        · rw [hescaped]
          exact List.mem_cons_self
        · rw [hbackslash]
          exact List.mem_cons_self
      exact absurd rfl (List.any_eq_false.mp h 92 hmem)
  have hflat : text.toList.flatMap canonicalChar = text.toList := by
    rw [List.flatMap_congr hchars]
    exact List.flatMap_singleton' text.toList
  rw [inner, hflat, utf8]

variable (serde : SerdeJson)

/-- The text of a serialized key is the key. -/
theorem keyText_canonicalString (text : String) :
    JcsFormatter.keyText serde (canonicalString text) = text := by
  unfold JcsFormatter.keyText
  rw [unquoted_canonicalString, serde.fromSlice_canonical]
  dsimp only [Option.getD_some]
  split
  · rfl
  · rename_i h
    rw [inner_eq_utf8 (Bool.eq_false_of_not_eq_true h), fromUtf8_utf8]
    rfl

/-- The code units of a plain key are its bytes. -/
theorem utf16_of_plain {text : String} (h : isPlain (canonicalString text) = true) :
    (unquoted (canonicalString text)).map UInt8.toNat = utf16 text := by
  obtain ⟨hascii, hescapes⟩ := Bool.and_eq_true_iff.mp h
  rw [canonicalString_eq] at hascii hescapes
  have hplain : (inner text).any isBackslash = false := by
    refine List.any_eq_false.mpr fun byte hbyte => ?_
    have hnone := List.any_eq_false.mp (Bool.not_eq_true' _ ▸ hescapes) byte
      (List.mem_append_left _ (List.mem_append_right _ hbyte))
    exact hnone
  have hbytes : ∀ byte ∈ utf8 text, byte.toNat < 128 := fun byte hbyte => by
    rw [← inner_eq_utf8 hplain] at hbyte
    exact of_decide_eq_true (List.all_eq_true.mp hascii byte
      (List.mem_append_left _ (List.mem_append_right _ hbyte)))
  rw [unquoted_canonicalString, inner_eq_utf8 hplain]
  exact (units_eq_bytes hbytes).symm

/-- A member whose key is the serialized text. -/
structure HasKey (buf : Bytes) (member : Member) (text : String) : Prop where
  key : slice buf member.key = canonicalString text
  plain : member.plain = isPlain (canonicalString text)

/-- Members compare as the code units of their keys. -/
theorem cmpMembers_eq {buf : Bytes} {left right : Member} {text text' : String}
    (hleft : HasKey buf left text) (hright : HasKey buf right text') :
    JcsFormatter.cmpMembers serde buf left right = compareUnits (utf16 text) (utf16 text') := by
  unfold JcsFormatter.cmpMembers
  dsimp only
  rw [hleft.key, hright.key]
  split
  · rename_i h
    obtain ⟨hplain, hplain'⟩ := Bool.and_eq_true_iff.mp h
    rw [utf16_of_plain (hleft.plain ▸ hplain), utf16_of_plain (hright.plain ▸ hplain')]
  · rw [JcsFormatter.cmpKeys, keyText_canonicalString, keyText_canonicalString]

end Chronicle.Jcs
