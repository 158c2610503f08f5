import Chronicle.Jcs.Canonical

/-!
# A serializer

What `serde_json` does for value trees and for keys, as far as the formatter needs it: the calls,
the escapes it writes, and reading them back. The number format stays a parameter.
-/

namespace Chronicle.Jcs

open Chronicle.Library Chronicle.Library.Bytes

/-- A fragment, if there is one. -/
def fragmentCalls (pending : List Char) : List FormatterCall :=
  if pending = [] then [] else [.writeStringFragment (String.ofList pending)]

/-- `format_escaped_str_contents` -/
def contentCalls : List Char → List Char → List FormatterCall
  | pending, [] => fragmentCalls pending
  | pending, c :: rest =>
      match escapeOf c with
      | none => contentCalls (pending ++ [c]) rest
      | some escape => fragmentCalls pending ++ .writeCharEscape escape :: contentCalls [] rest

/-- `format_escaped_str` -/
def stringCallsOf (text : String) : List FormatterCall :=
  .beginString :: (contentCalls [] text.toList ++ [.endString])

mutual

/-- The calls for a value. -/
def callsOf : Json → List FormatterCall
  | .null => [.writeNull]
  | .bool value => [.writeBool value]
  | .unsigned value => [.writeU64 value]
  | .signed value => [.writeI64 value]
  | .float value => if value.isFinite then [.writeF64 value] else [.writeNull]
  | .string value => stringCallsOf value
  | .array elements => .beginArray :: (elementCallsOf true elements ++ [.endArray])
  | .object members => .beginObject :: (memberCallsOf true members ++ [.endObject])

def elementCallsOf : Bool → List Json → List FormatterCall
  | _, [] => []
  | first, element :: rest =>
      .beginArrayValue first :: (callsOf element ++ .endArrayValue :: elementCallsOf false rest)

def memberCallsOf : Bool → List (String × Json) → List FormatterCall
  | _, [] => []
  | first, (key, value) :: rest =>
      .beginObjectKey first :: (stringCallsOf key ++ .endObjectKey :: .beginObjectValue ::
        (callsOf value ++ .endObjectValue :: memberCallsOf false rest))

end

/-- The value of a hexadecimal digit. -/
def hexValue (c : Char) : Nat := if c.toNat < 58 then c.toNat - 48 else c.toNat - 87

/-- The character of an escape with one letter. -/
def letterEscape (c : Char) : Option Char :=
  if c = '"' ∨ c = '\\' ∨ c = '/' then some c
  else if c = 'b' then some (Char.ofNat 8)
  else if c = 't' then some (Char.ofNat 9)
  else if c = 'n' then some (Char.ofNat 10)
  else if c = 'f' then some (Char.ofNat 12)
  else if c = 'r' then some (Char.ofNat 13)
  else none

/-- Where in an escape the reader is. -/
inductive Reading where
  | outside
  | escape
  | digits (left value : Nat)

/-- The characters that a text with escapes stands for. -/
def unescape : Reading → List Char → Option (List Char)
  | .outside, [] => some []
  | .escape, [] => none
  | .digits _ _, [] => none
  | .outside, c :: rest =>
      if c = '\\' then unescape .escape rest else (unescape .outside rest).map (c :: ·)
  | .escape, c :: rest =>
      if c = 'u' then unescape (.digits 3 0) rest
      else (letterEscape c).bind fun c => (unescape .outside rest).map (c :: ·)
  | .digits 0 value, c :: rest =>
      (unescape .outside rest).map (Char.ofNat (value * 16 + hexValue c) :: ·)
  | .digits (left + 1) value, c :: rest => unescape (.digits left (value * 16 + hexValue c)) rest

/-- `serde_json::from_slice` of a serialized text -/
def readString (bytes : Bytes) : Option String :=
  (fromUtf8 (unquoted bytes)).bind fun content =>
    (unescape .outside content.toList).map String.ofList

theorem unescape_letter {letter c : Char} (hletter : letter ≠ 'u')
    (h : letterEscape letter = some c) (rest : List Char) :
    unescape .outside ('\\' :: letter :: rest) = (unescape .outside rest).map (c :: ·) := by
  rw [unescape, if_pos rfl, unescape, if_neg hletter, h]
  rfl

theorem hexValue_hexDigit {n : Nat} (h : n < 32) :
    hexValue (hexDigit (n / 16)) * 16 + hexValue (hexDigit (n % 16)) = n := by
  have hall : ∀ n : Fin 32,
      hexValue (hexDigit (n.val / 16)) * 16 + hexValue (hexDigit (n.val % 16)) = n.val := by decide
  exact hall ⟨n, h⟩

theorem unescape_digits {n : Nat} (h : n < 32) (rest : List Char) :
    unescape .outside
        ('\\' :: 'u' :: '0' :: '0' :: hexDigit (n / 16) :: hexDigit (n % 16) :: rest) =
      (unescape .outside rest).map (Char.ofNat n :: ·) := by
  have hzero : hexValue '0' = 0 := by decide
  rw [unescape, if_pos rfl, unescape, if_pos rfl, unescape, unescape, unescape, unescape, hzero]
  simp only [Nat.zero_mul, Nat.zero_add, hexValue_hexDigit h]

/-- Every way to write a character is read back. -/
theorem unescape_canonicalChar (c : Char) (rest : List Char) :
    unescape .outside (canonicalChar c ++ rest) = (unescape .outside rest).map (c :: ·) := by
  have hchar : ∀ {n : Nat}, c.toNat = n → Char.ofNat n = c := fun h => h ▸ Char.ofNat_toNat c
  unfold canonicalChar
  split_ifs with hquote hsolidus hback htab hline hform hreturn hcontrol
  · subst hquote
    exact unescape_letter (by decide) rfl rest
  · subst hsolidus
    exact unescape_letter (by decide) rfl rest
  · exact hchar hback ▸ unescape_letter (by decide) rfl rest
  · exact hchar htab ▸ unescape_letter (by decide) rfl rest
  · exact hchar hline ▸ unescape_letter (by decide) rfl rest
  · exact hchar hform ▸ unescape_letter (by decide) rfl rest
  · exact hchar hreturn ▸ unescape_letter (by decide) rfl rest
  · exact (unescape_digits hcontrol rest).trans (by rw [Char.ofNat_toNat])
  · exact if_neg hsolidus

theorem unescape_canonical (chars : List Char) :
    unescape .outside (chars.flatMap canonicalChar) = some chars := by
  induction chars with
  | nil => rfl
  | cons c rest ih =>
      rw [List.flatMap_cons, unescape_canonicalChar, ih]
      rfl

theorem readString_canonicalString (text : String) :
    readString (canonicalString text) = some text := by
  have hcontent : inner text = utf8 (String.ofList (text.toList.flatMap canonicalChar)) := by
    rw [inner, utf8, String.toList_ofList]
  rw [readString, unquoted_canonicalString, hcontent, fromUtf8_utf8]
  dsimp only [Option.bind_some]
  rw [String.toList_ofList, unescape_canonical, Option.map_some, String.ofList_toList]

/-! ## The calls -/

theorem spells_contentCalls {pending rest : List Char}
    (hpending : ∀ c ∈ pending, escapeOf c = none) :
    Spells (pending ++ rest) (contentCalls pending rest) := by
  have hfragment : ∀ {pending chars : List Char} {calls : List FormatterCall},
      (∀ c ∈ pending, escapeOf c = none) → Spells chars calls →
      Spells (pending ++ chars) (fragmentCalls pending ++ calls) := by
    intro pending chars calls hpending h
    unfold fragmentCalls
    split
    · rename_i hnil
      rw [hnil]
      exact h
    · have hplain : ∀ c ∈ (String.ofList pending).toList, escapeOf c = none := by
        rw [String.toList_ofList]
        exact hpending
      have hspells := Spells.fragment (String.ofList pending) hplain h
      rw [String.toList_ofList] at hspells
      exact hspells
  induction rest generalizing pending with
  | nil =>
      have h := hfragment hpending Spells.nil
      rw [List.append_nil (fragmentCalls pending)] at h
      exact h
  | cons c rest ih =>
      rw [contentCalls]
      cases hescape : escapeOf c with
      | none =>
          have h := @ih (pending ++ [c]) fun d hd => by
            rcases List.mem_append.mp hd with hd | hd
            · exact hpending d hd
            · exact (List.mem_singleton.mp hd) ▸ hescape
          rw [List.append_assoc] at h
          exact h
      | some escape =>
          exact hfragment hpending (.escape hescape (@ih [] fun _ hc =>
            absurd hc List.not_mem_nil))

theorem elementCallsOf_eq (first : Bool) (elements : List Json) :
    elementCallsOf first elements = elementCalls callsOf first elements := by
  induction elements generalizing first with
  | nil => rfl
  | cons element rest ih => rw [elementCallsOf, elementCalls, ih]

theorem memberCallsOf_eq (first : Bool) (members : List (String × Json)) :
    memberCallsOf first members = memberCalls callsOf stringCallsOf first members := by
  induction members generalizing first with
  | nil => rfl
  | cons member rest ih => rw [memberCallsOf, memberCalls, ih]

/-- `serde_json` with a number format. -/
def serdeJson (formatFinite : Binary64 → Bytes) : SerdeJson where
  calls := callsOf
  stringCalls := stringCallsOf
  fromSlice := readString
  toVec := canonicalString
  formatFinite
  calls_null := by rw [callsOf]
  calls_bool value := by rw [callsOf]
  calls_unsigned value := by rw [callsOf]
  calls_signed value := by rw [callsOf]
  calls_float value := by rw [callsOf]
  calls_string value := by rw [callsOf]
  calls_array elements := by rw [callsOf, elementCallsOf_eq]
  calls_object members := by rw [callsOf, memberCallsOf_eq]
  stringCalls_spells text :=
    ⟨contentCalls [] text.toList, spells_contentCalls fun _ hc => absurd hc List.not_mem_nil, rfl⟩
  fromSlice_canonical := readString_canonicalString
  toVec_canonical _ := rfl

/-- In an array the range captured is that of the object's own bytes, and not of the output. -/
theorem to_vec_capturing_in_array :
    let serde := serdeJson fun _ => utf8 "0"
    toVecCapturing serde (.array [.object [("k", .null)]]) "k" =
        .ok (utf8 "[\x7b\"k\":null\x7d]", some (5, 9)) ∧
      slice (utf8 "[\x7b\"k\":null\x7d]") (5, 9) ≠ canonical serde.formatFinite .null := by
  decide +kernel

end Chronicle.Jcs
