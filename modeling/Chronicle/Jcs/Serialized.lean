import Chronicle.Jcs.Closing

/-!
# What the formatter writes

The calls for a value put its canonical form where the formatter writes at that depth and leave the
open objects around it as they were. The members of an open object are added one at a time, each
range behind those before it.
-/

namespace Chronicle.Jcs

open Chronicle.Library Chronicle.Library.Bytes

namespace JcsFormatter

@[simp]
theorem put_frames (bytes : Bytes) (f : JcsFormatter) : (f.put bytes).frames = f.frames := by
  unfold put
  split <;> rfl

theorem put_put (first second : Bytes) (f : JcsFormatter) :
    (f.put first).put second = f.put (first ++ second) := by
  unfold put
  by_cases h : f.frames.isEmpty = true
  · rw [if_pos h]
    dsimp only
    rw [if_pos h, if_pos h, List.append_assoc]
  · rw [if_neg h]
    dsimp only
    rw [if_neg h, if_neg h, List.append_assoc]

theorem put_nil (f : JcsFormatter) : f.put [] = f := by
  unfold put
  split <;> rw [List.append_nil]

/-- Inside an object the formatter writes to the buffer. -/
theorem put_inside {f : JcsFormatter} (h : f.frames ≠ []) (bytes : Bytes) :
    f.put bytes = { f with buf := f.buf ++ bytes } := by
  unfold put
  rw [if_neg]
  exact fun hempty => h (List.isEmpty_iff.mp hempty)

/-- The same formatter with another start of a key and another captured range. -/
def after (f : JcsFormatter) (keyStart : Nat) (captured : Option Range) : JcsFormatter :=
  { f with keyStart, captured }

theorem put_after (f : JcsFormatter) (keyStart : Nat) (captured : Option Range) (bytes : Bytes) :
    (f.after keyStart captured).put bytes = (f.put bytes).after keyStart captured := by
  unfold put after
  dsimp only
  split <;> rfl

variable {serde : SerdeJson}

theorem run_nil (f : JcsFormatter) : run serde [] f = .ok f := rfl

theorem run_cons (call : FormatterCall) (calls : List FormatterCall) (f : JcsFormatter) :
    run serde (call :: calls) f = (step serde f call).bind (run serde calls) := rfl

theorem run_singleton (call : FormatterCall) (f : JcsFormatter) :
    run serde [call] f = step serde f call := by
  rw [run_cons]
  cases step serde f call <;> rfl

theorem run_append (first second : List FormatterCall) (f : JcsFormatter) :
    run serde (first ++ second) f = (run serde first f).bind (run serde second) :=
  List.foldlM_append

/-! ## Texts -/

/-- The calls only put bytes. -/
def Puts (serde : SerdeJson) (calls : List FormatterCall) (bytes : Bytes) : Prop :=
  ∀ f, run serde calls f = .ok (f.put bytes)

theorem Puts.cons {call : FormatterCall} {calls : List FormatterCall} {first second : Bytes}
    (hcall : ∀ f, step serde f call = .ok (f.put first)) (h : Puts serde calls second) :
    Puts serde (call :: calls) (first ++ second) := by
  intro f
  rw [run_cons, hcall, ← put_put]
  exact h _

theorem Puts.nil : Puts serde [] [] := fun f => by rw [put_nil, run_nil]

/-- The characters that an escape is written with. -/
def escapeChars : CharEscape → List Char
  | .quote => ['\\', '"']
  | .reverseSolidus => ['\\', '\\']
  | .solidus => ['/']
  | .backspace => ['\\', 'b']
  | .formFeed => ['\\', 'f']
  | .lineFeed => ['\\', 'n']
  | .carriageReturn => ['\\', 'r']
  | .tab => ['\\', 't']
  | .asciiControl byte =>
      ['\\', 'u', '0', '0', hexDigit (byte.toNat / 16), hexDigit (byte.toNat % 16)]

theorem escapeBytes_eq (escape : CharEscape) :
    escapeBytes escape = (escapeChars escape).flatMap String.utf8EncodeChar := by
  cases escape with
  | asciiControl byte =>
      unfold escapeBytes utf8
      simp only [← List.flatMap_append, String.toList_ofList]
      rfl
  | quote | reverseSolidus | solidus | backspace | formFeed | lineFeed | carriageReturn | tab => rfl

theorem escapeChars_asciiControl {n : Nat} (h : n < 32) :
    escapeChars (.asciiControl (UInt8.ofNat n)) =
      ['\\', 'u', '0', '0', hexDigit (n / 16), hexDigit (n % 16)] := by
  have hbyte : (UInt8.ofNat n).toNat = n := by
    rw [UInt8.toNat_ofNat']
    omega
  rw [escapeChars, hbyte]

/-- The serializer escapes the characters that the canonical text escapes. -/
theorem canonicalChar_eq (c : Char) :
    canonicalChar c = (escapeOf c).elim [c] escapeChars := by
  unfold canonicalChar escapeOf
  split_ifs
  all_goals first
    | rfl
    | exact (escapeChars_asciiControl ‹_›).symm

theorem puts_of_spells {chars : List Char} {calls : List FormatterCall} (h : Spells chars calls) :
    Puts serde calls ((chars.flatMap canonicalChar).flatMap String.utf8EncodeChar) := by
  induction h with
  | nil => exact Puts.nil
  | @fragment chars calls text hplain _ ih =>
      have hchars : ∀ c ∈ text.toList, canonicalChar c = [c] := fun c hc => by
        rw [canonicalChar_eq, hplain c hc, Option.elim_none]
      have hself : text.toList.flatMap canonicalChar = text.toList := by
        rw [List.flatMap_congr hchars]
        exact List.flatMap_singleton' text.toList
      rw [List.flatMap_append, List.flatMap_append, hself]
      exact Puts.cons (fun _ => rfl) ih
  | @escape chars calls c escape hescape _ ih =>
      rw [List.flatMap_cons, List.flatMap_append, canonicalChar_eq, hescape, Option.elim_some,
        ← escapeBytes_eq]
      exact Puts.cons (fun _ => rfl) ih

/-- The calls for a text put the canonical text. -/
theorem puts_stringCalls (text : String) :
    Puts serde (serde.stringCalls text) (canonicalString text) := by
  obtain ⟨spelling, hspells, hcalls⟩ := serde.stringCalls_spells text
  rw [hcalls, canonicalString_eq, List.append_assoc]
  refine Puts.cons (fun _ => rfl) fun f => ?_
  rw [run_append, puts_of_spells hspells, ← put_put]
  rfl

/-! ## Values -/

/-- The calls put bytes and leave the open objects as they were; only outside all objects may the
captured range change. -/
def Writes (serde : SerdeJson) (calls : List FormatterCall) (bytes : Bytes) : Prop :=
  ∀ f, ∃ keyStart captured, run serde calls f = .ok ((f.put bytes).after keyStart captured) ∧
    (f.frames ≠ [] → captured = f.captured)

theorem Puts.writes {calls : List FormatterCall} {bytes : Bytes} (h : Puts serde calls bytes) :
    Writes serde calls bytes := by
  intro f
  refine ⟨f.keyStart, f.captured, (h f).trans ?_, fun _ => rfl⟩
  unfold put after
  split <;> rfl

theorem Writes.append {first second : List FormatterCall} {x y : Bytes}
    (hfirst : Writes serde first x) (hsecond : Writes serde second y) :
    Writes serde (first ++ second) (x ++ y) := by
  intro f
  obtain ⟨keyStart, captured, hrun, hcaptured⟩ := hfirst f
  obtain ⟨keyStart', captured', hrun', hcaptured'⟩ := hsecond ((f.put x).after keyStart captured)
  refine ⟨keyStart', captured', ?_, fun hinside => ?_⟩
  · rw [run_append, hrun]
    refine hrun'.trans ?_
    rw [put_after, put_put]
    rfl
  · have hframes : ((f.put x).after keyStart captured).frames ≠ [] := by
      rw [show ((f.put x).after keyStart captured).frames = (f.put x).frames from rfl, put_frames]
      exact hinside
    exact (hcaptured' hframes).trans (hcaptured hinside)

/-- A 64-bit integer is a finite number. -/
theorem isFinite_ofInt {n : Int} (h : |n| ≤ 2 ^ 64) : (Binary64.ofInt n).isFinite = true := by
  unfold Binary64.ofInt
  rw [Binary64.ofRat_finite]
  · rfl
  · have hcast : (|n| : ℚ) ≤ 2 ^ 64 := by exact_mod_cast h
    exact hcast.trans (pow_le_pow_right₀ (by norm_num) (by norm_num))

theorem writes_number {call : FormatterCall} {value : Binary64} (hfinite : value.isFinite = true)
    (hcall : ∀ f, step serde f call = f.writeF64 serde value) :
    Writes serde [call] (serde.formatFinite value) := by
  refine Puts.writes fun f => ?_
  rw [run_cons, hcall, writeF64, if_pos hfinite]
  rfl

/-- A call that puts bytes. -/
theorem writes_single {call : FormatterCall} {bytes : Bytes}
    (hcall : ∀ f, step serde f call = .ok (f.put bytes)) : Writes serde [call] bytes := by
  refine Puts.writes fun f => ?_
  rw [run_cons, hcall]
  rfl

/-! ## Members -/

/-- The calls for members add their entries behind what the innermost object has. -/
def Adds (serde : SerdeJson) (calls : List FormatterCall) (entries : List Entry) : Prop :=
  ∀ f : JcsFormatter, f.frames ≠ [] → ∃ more added keyStart,
    run serde calls f =
      .ok { f with buf := f.buf ++ more, members := f.members ++ added, keyStart } ∧
    List.Forall₂ (Reads (f.buf ++ more)) added entries

theorem adds_nil : Adds serde [] [] := by
  intro f _
  refine ⟨[], [], f.keyStart, ?_, .nil⟩
  rw [List.append_nil, List.append_nil]
  rfl

/-- The member that a key and a value behind the buffer make. -/
def memberAt (buf key value : Bytes) : Member where
  key := (buf.length, (buf ++ key).length)
  value := ((buf ++ key).length, (buf ++ key ++ value).length)
  plain := isPlain key

theorem slice_last (before last : Bytes) :
    slice (before ++ last) (before.length, (before ++ last).length) = last := by
  have h := slice_append_middle before last []
  rw [List.append_nil] at h
  rw [List.length_append]
  exact h

theorem reads_memberAt (buf : Bytes) (key : String) (value : Bytes) :
    Reads (buf ++ canonicalString key ++ value) (memberAt buf (canonicalString key) value)
      (key, value) where
  key := (slice_append value (Nat.le_refl _)).trans (slice_last buf (canonicalString key))
  plain := rfl
  value := slice_last (buf ++ canonicalString key) value
  keyEnd := by
    exact (Nat.le_add_right _ _).trans_eq List.length_append.symm
  valueEnd := Nat.le_refl _

/-- The calls for one member add it. -/
theorem run_member (key : String) {calls : List FormatterCall} {value : Bytes} (first : Bool)
    (hvalue : Writes serde calls value) {f : JcsFormatter} (hinside : f.frames ≠ []) :
    ∃ keyStart, ∀ rest : List FormatterCall,
      run serde (.beginObjectKey first :: (serde.stringCalls key ++ .endObjectKey ::
        .beginObjectValue :: (calls ++ .endObjectValue :: rest))) f =
        run serde rest { f with
          buf := f.buf ++ canonicalString key ++ value
          members := f.members ++ [memberAt f.buf (canonicalString key) value]
          keyStart } := by
  -- the formatter before and after the value
  let opened : JcsFormatter := { f with
    keyStart := f.buf.length
    buf := f.buf ++ canonicalString key
    members := f.members ++ [{ memberAt f.buf (canonicalString key) value with
      value := ((f.buf ++ canonicalString key).length, (f.buf ++ canonicalString key).length) }] }
  obtain ⟨keyStart, captured, hrun, hcaptured⟩ := hvalue opened
  obtain rfl : captured = f.captured := hcaptured hinside
  refine ⟨keyStart, fun rest => ?_⟩
  have hkey : run serde (serde.stringCalls key) { f with keyStart := f.buf.length } =
      .ok { f with keyStart := f.buf.length, buf := f.buf ++ canonicalString key } :=
    (puts_stringCalls key _).trans
      (congrArg Except.ok (put_inside (f := { f with keyStart := f.buf.length }) hinside _))
  have hopen : JcsFormatter.beginObjectValue
      { f with keyStart := f.buf.length, buf := f.buf ++ canonicalString key } = opened := by
    unfold JcsFormatter.beginObjectValue
    dsimp only
    rw [slice_last]
    rfl
  have hclosed : step serde ((opened.put value).after keyStart f.captured) .endObjectValue =
      .ok { f with
        buf := f.buf ++ canonicalString key ++ value
        members := f.members ++ [memberAt f.buf (canonicalString key) value]
        keyStart } := by
    rw [put_inside (f := opened) hinside]
    show JcsFormatter.endObjectValue _ = _
    unfold JcsFormatter.endObjectValue after
    dsimp only [opened]
    rw [List.getLast?_concat, List.dropLast_concat]
    rfl
  rw [run_cons]
  show run serde (serde.stringCalls key ++ _) { f with keyStart := f.buf.length } = _
  rw [run_append, hkey]
  show run serde (calls ++ _) (JcsFormatter.beginObjectValue _) = _
  rw [hopen, run_append, hrun]
  show run serde (.endObjectValue :: rest) _ = _
  rw [run_cons, hclosed]
  rfl

theorem adds_cons {key : String} {calls : List FormatterCall} {value : Bytes}
    {rest : List FormatterCall} {entries : List Entry} (first : Bool)
    (hvalue : Writes serde calls value) (hrest : Adds serde rest entries) :
    Adds serde
      (.beginObjectKey first :: (serde.stringCalls key ++ .endObjectKey :: .beginObjectValue ::
        (calls ++ .endObjectValue :: rest)))
      ((key, value) :: entries) := by
  intro f hinside
  obtain ⟨keyStart, hmember⟩ := run_member key first hvalue hinside
  obtain ⟨more, added, keyStart', hrun, hreads⟩ := hrest
    { f with
      buf := f.buf ++ canonicalString key ++ value
      members := f.members ++ [memberAt f.buf (canonicalString key) value]
      keyStart } hinside
  refine ⟨canonicalString key ++ value ++ more, memberAt f.buf (canonicalString key) value :: added,
    keyStart', ?_, ?_⟩
  · rw [hmember, hrun]
    simp only [List.append_assoc, List.singleton_append]
  · rw [← List.append_assoc, ← List.append_assoc]
    exact .cons ((reads_memberAt f.buf key value).append more) hreads

/-! ## The tree -/

/-- Closing the innermost object puts the canonical object of its entries. -/
theorem endObject_eq (f : JcsFormatter) {more : Bytes} {added : List Member} {entries : List Entry}
    (hreads : List.Forall₂ (Reads (f.buf ++ more)) added entries) (keyStart : Nat) :
    JcsFormatter.endObject serde { f with
      buf := f.buf ++ more
      members := f.members ++ added
      frames := (f.buf.length, f.members.length) :: f.frames
      keyStart } =
      .ok ((f.put (canonicalObject entries)).after keyStart
        (closeEntries (if f.frames.isEmpty then f.capture else none) true (sortedMembers entries)
          ⟨openBrace, f.captured⟩).captured) := by
  unfold JcsFormatter.endObject
  dsimp only
  rw [List.drop_left, List.take_left, List.take_left, closeObject_eq serde hreads]
  dsimp only
  rw [out_closeEntries, ← put_after]
  rfl

/-- An object's calls put the canonical object, and the range they capture is the closing one. -/
theorem run_object {calls : List FormatterCall} {entries : List Entry}
    (hmembers : Adds serde calls entries) (f : JcsFormatter) :
    ∃ keyStart, run serde (.beginObject :: (calls ++ [.endObject])) f =
      .ok ((f.put (canonicalObject entries)).after keyStart
        (closeEntries (if f.frames.isEmpty then f.capture else none) true (sortedMembers entries)
          ⟨openBrace, f.captured⟩).captured) := by
  obtain ⟨more, added, keyStart, hrun, hreads⟩ := hmembers
    { f with frames := (f.buf.length, f.members.length) :: f.frames } (List.cons_ne_nil _ _)
  refine ⟨keyStart, ?_⟩
  rw [run_cons]
  show run serde (calls ++ _) _ = _
  rw [run_append, hrun, ← endObject_eq f hreads keyStart]
  exact run_singleton _ _

theorem writes_object {calls : List FormatterCall} {entries : List Entry}
    (hmembers : Adds serde calls entries) :
    Writes serde (.beginObject :: (calls ++ [.endObject])) (canonicalObject entries) := by
  intro f
  obtain ⟨keyStart, hrun⟩ := run_object hmembers f
  refine ⟨keyStart, _, hrun, fun hinside => ?_⟩
  rw [if_neg fun hempty => hinside (List.isEmpty_iff.mp hempty)]
  exact captured_closeEntries_of_absent (fun _ _ => (Option.some_ne_none _).symm) _ _

/-- The elements of an array with commas in front of all but the first. -/
def elementBytes : Bool → List Bytes → Bytes
  | _, [] => []
  | first, part :: rest => (if first then part else utf8 "," ++ part) ++ elementBytes false rest

theorem elementBytes_first (parts : List Bytes) :
    elementBytes true parts = commaSeparated parts := by
  have hrest : ∀ parts : List Bytes,
      elementBytes false parts = parts.flatMap fun part => utf8 "," ++ part := by
    intro parts
    induction parts with
    | nil => rfl
    | cons part rest ih => rw [elementBytes, ih, List.flatMap_cons, if_neg Bool.false_ne_true]
  cases parts with
  | nil => rfl
  | cons part rest => rw [elementBytes, hrest, commaSeparated_cons, if_pos rfl]

theorem writes_element {calls rest : List FormatterCall} {part bytes : Bytes} (first : Bool)
    (hvalue : Writes serde calls part) (hrest : Writes serde rest bytes) :
    Writes serde (.beginArrayValue first :: (calls ++ .endArrayValue :: rest))
      ((if first then part else utf8 "," ++ part) ++ bytes) := by
  have hbegin : Writes serde [.beginArrayValue first] (if first then [] else utf8 ",") := by
    refine writes_single fun f => ?_
    cases first
    · rfl
    · exact congrArg Except.ok (put_nil f).symm
  have hend : Writes serde [.endArrayValue] [] :=
    writes_single fun f => congrArg Except.ok (put_nil f).symm
  have hall := hbegin.append (hvalue.append (hend.append hrest))
  cases first
  · rw [if_neg Bool.false_ne_true, List.append_assoc]
    exact hall
  · exact hall

variable (serde)

mutual

/-- The calls for a value write its canonical form. -/
theorem writes_value : ∀ value : Json,
    Writes serde (serde.calls value) (canonical serde.formatFinite value)
  | .null => by
      rw [serde.calls_null, canonical]
      exact writes_single fun _ => rfl
  | .bool value => by
      rw [serde.calls_bool, canonical]
      exact writes_single fun _ => rfl
  | .unsigned value => by
      rw [serde.calls_unsigned, canonical]
      refine writes_number (isFinite_ofInt ?_) fun _ => rfl
      have hbound := value.toNat_lt
      rw [abs_of_nonneg (Int.natCast_nonneg _)]
      omega
  | .signed value => by
      rw [serde.calls_signed, canonical]
      refine writes_number (isFinite_ofInt ?_) fun _ => rfl
      have hlow := value.le_toInt
      have hhigh := value.toInt_lt
      rw [abs_le]
      omega
  | .float value => by
      rw [serde.calls_float, canonical]
      split
      · rename_i hfinite
        exact writes_number hfinite fun _ => rfl
      · exact writes_single fun _ => rfl
  | .string value => by
      rw [serde.calls_string, canonical]
      exact (puts_stringCalls value).writes
  | .array elements => by
      rw [serde.calls_array, canonical, ← elementBytes_first, List.append_assoc]
      have hbegin : Writes serde [.beginArray] (utf8 "[") := writes_single fun _ => rfl
      have hend : Writes serde [.endArray] (utf8 "]") := writes_single fun _ => rfl
      exact hbegin.append ((writes_elements true elements).append hend)
  | .object members => by
      rw [serde.calls_object, canonical]
      exact writes_object (adds_members true members)

theorem writes_elements : ∀ (first : Bool) (elements : List Json),
    Writes serde (elementCalls serde.calls first elements)
      (elementBytes first (canonicalElements serde.formatFinite elements))
  | _, [] => Puts.nil.writes
  | first, element :: rest =>
      writes_element first (writes_value element) (writes_elements false rest)

theorem adds_members : ∀ (first : Bool) (members : List (String × Json)),
    Adds serde (memberCalls serde.calls serde.stringCalls first members)
      (canonicalMembers serde.formatFinite members)
  | _, [] => adds_nil
  | first, (_, value) :: rest => adds_cons first (writes_value value) (adds_members false rest)

end

end JcsFormatter

end Chronicle.Jcs
