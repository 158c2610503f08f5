import Chronicle.Jcs.Json

/-!
# The member-range formatter

`JcsFormatter` is driven by the calls that a serializer makes for a value. The members of every open
object share one buffer, a member is a pair of ranges of it, and closing an object sorts its ranges
and puts the object's canonical form in their place. The serializer, the parser of a serialized key
and the number format come from other crates; what is documented of them is `SerdeJson`.
-/

namespace Chronicle.Jcs

open Chronicle.Library Chronicle.Library.Bytes Chronicle.Library.Utf16

/-- `CharEscape` -/
inductive CharEscape where
  | quote
  | reverseSolidus
  | solidus
  | backspace
  | formFeed
  | lineFeed
  | carriageReturn
  | tab
  | asciiControl (byte : UInt8)
deriving DecidableEq

/-- A call of a method of `Formatter`; the integers narrower than 64 bits are written as these. -/
inductive FormatterCall where
  | writeNull
  | writeBool (value : Bool)
  | writeU64 (value : UInt64)
  | writeI64 (value : Int64)
  | writeF64 (value : Binary64)
  | beginString
  | endString
  | writeStringFragment (fragment : String)
  | writeCharEscape (escape : CharEscape)
  | beginArray
  | endArray
  | beginArrayValue (first : Bool)
  | endArrayValue
  | beginObject
  | endObject
  | beginObjectKey (first : Bool)
  | endObjectKey
  | beginObjectValue
  | endObjectValue

/-! ## What the other crates do -/

/-- The character that an escape stands for. -/
def CharEscape.char : CharEscape → Char
  | .quote => '"'
  | .reverseSolidus => '\\'
  | .solidus => '/'
  | .backspace => Char.ofNat 8
  | .formFeed => Char.ofNat 12
  | .lineFeed => Char.ofNat 10
  | .carriageReturn => Char.ofNat 13
  | .tab => Char.ofNat 9
  | .asciiControl byte => Char.ofNat byte.toNat

/-- How the serializer escapes a character, if it does. -/
def escapeOf (c : Char) : Option CharEscape :=
  if c = '"' then some .quote
  else if c = '\\' then some .reverseSolidus
  else if c.toNat = 8 then some .backspace
  else if c.toNat = 9 then some .tab
  else if c.toNat = 10 then some .lineFeed
  else if c.toNat = 12 then some .formFeed
  else if c.toNat = 13 then some .carriageReturn
  else if c.toNat < 32 then some (.asciiControl (UInt8.ofNat c.toNat))
  else none

/-- The calls spell the characters: fragments of characters that need no escape, and escapes. -/
inductive Spells : List Char → List FormatterCall → Prop where
  | nil : Spells [] []
  | fragment {chars : List Char} {calls : List FormatterCall} (text : String)
      (hplain : ∀ c ∈ text.toList, escapeOf c = none) (h : Spells chars calls) :
      Spells (text.toList ++ chars) (.writeStringFragment text :: calls)
  | escape {chars : List Char} {calls : List FormatterCall} {c : Char} {escape : CharEscape}
      (hescape : escapeOf c = some escape) (h : Spells chars calls) :
      Spells (c :: chars) (.writeCharEscape escape :: calls)

section Calls

variable (calls : Json → List FormatterCall) (stringCalls : String → List FormatterCall)

/-- The calls for the elements of an array. -/
def elementCalls : Bool → List Json → List FormatterCall
  | _, [] => []
  | first, element :: rest =>
      .beginArrayValue first :: (calls element ++ .endArrayValue :: elementCalls false rest)

/-- The calls for the members of an object. -/
def memberCalls : Bool → List (String × Json) → List FormatterCall
  | _, [] => []
  | first, (key, value) :: rest =>
      .beginObjectKey first :: (stringCalls key ++ .endObjectKey :: .beginObjectValue ::
        (calls value ++ .endObjectValue :: memberCalls false rest))

end Calls

/-- The serializer of `serde_json`, its parser of one text, its serialization of one text, and the
number format of `ryu_js`. -/
structure SerdeJson where
  calls : Json → List FormatterCall
  stringCalls : String → List FormatterCall
  fromSlice : Bytes → Option String
  toVec : String → Bytes
  formatFinite : Binary64 → Bytes
  calls_null : calls .null = [.writeNull]
  calls_bool : ∀ value, calls (.bool value) = [.writeBool value]
  calls_unsigned : ∀ value, calls (.unsigned value) = [.writeU64 value]
  calls_signed : ∀ value, calls (.signed value) = [.writeI64 value]
  calls_float : ∀ value,
    calls (.float value) = if value.isFinite then [.writeF64 value] else [.writeNull]
  calls_string : ∀ value, calls (.string value) = stringCalls value
  calls_array : ∀ elements,
    calls (.array elements) = .beginArray :: (elementCalls calls true elements ++ [.endArray])
  calls_object : ∀ members, calls (.object members) =
    .beginObject :: (memberCalls calls stringCalls true members ++ [.endObject])
  stringCalls_spells : ∀ text, ∃ spelling, Spells text.toList spelling ∧
    stringCalls text = .beginString :: (spelling ++ [.endString])
  fromSlice_canonical : ∀ text, fromSlice (canonicalString text) = some text
  toVec_canonical : ∀ text, toVec text = canonicalString text

/-! ## The formatter -/

/-- A range of the buffer. -/
abbrev Range := Nat × Nat

/-- The bytes of a range. -/
def slice (bytes : Bytes) (range : Range) : Bytes := (bytes.drop range.1).take (range.2 - range.1)

/-- `Member` -/
structure Member where
  key : Range
  value : Range
  plain : Bool

/-- `JcsFormatter`, with what its writer has received and the cell of the captured range. The
scratch buffer is only reused storage. -/
structure JcsFormatter where
  writer : Bytes
  buf : Bytes
  members : List Member
  frames : List (Nat × Nat)
  keyStart : Nat
  capture : Option Bytes
  captured : Option Range

/-- `str::from_utf8` -/
def fromUtf8 (bytes : Bytes) : Option String := String.fromUTF8? bytes.toByteArray

/-- The byte is a backslash. -/
def isBackslash (byte : UInt8) : Bool := byte.toNat = 92

/-- A serialized key without its quotes. -/
def unquoted (key : Bytes) : Bytes := slice key (1, key.length - 1)

/-- A serialized key of ASCII characters without escapes. -/
def isPlain (key : Bytes) : Bool := key.all (fun byte => byte.toNat < 128) && !key.any isBackslash

namespace JcsFormatter

/-- `put` -/
def put (bytes : Bytes) (f : JcsFormatter) : JcsFormatter :=
  if f.frames.isEmpty then { f with writer := f.writer ++ bytes }
  else { f with buf := f.buf ++ bytes }

/-- The bytes of an escape. -/
def escapeBytes : CharEscape → Bytes
  | .quote => utf8 "\\\""
  | .reverseSolidus => utf8 "\\\\"
  | .solidus => utf8 "/"
  | .backspace => utf8 "\\b"
  | .formFeed => utf8 "\\f"
  | .lineFeed => utf8 "\\n"
  | .carriageReturn => utf8 "\\r"
  | .tab => utf8 "\\t"
  | .asciiControl byte =>
      utf8 "\\u00" ++ utf8 (String.ofList [hexDigit (byte.toNat / 16), hexDigit (byte.toNat % 16)])

section Foreign

variable (serde : SerdeJson)

/-- The `text` of `cmp_keys` -/
def keyText (key : Bytes) : String :=
  let parsed := (serde.fromSlice key).getD ""
  if (unquoted key).any isBackslash then parsed else (fromUtf8 (unquoted key)).getD parsed

/-- `cmp_keys` -/
def cmpKeys (left right : Bytes) : Ordering :=
  compareUnits (utf16 (keyText serde left)) (utf16 (keyText serde right))

/-- `cmp_members` -/
def cmpMembers (buf : Bytes) (left right : Member) : Ordering :=
  let leftKey := slice buf left.key
  let rightKey := slice buf right.key
  if left.plain && right.plain then
    compareUnits ((unquoted leftKey).map UInt8.toNat) ((unquoted rightKey).map UInt8.toNat)
  else cmpKeys serde leftKey rightKey

/-- `write_f64` -/
def writeF64 (value : Binary64) (f : JcsFormatter) : Except String JcsFormatter :=
  if value.isFinite then .ok (f.put (serde.formatFinite value)) else .error "invalid float value"

/-- The output of a closing object and the captured range. -/
structure Closing where
  out : Bytes
  captured : Option Range

/-- One member of the output: the key of the first of its equals, the value of the last. -/
def closeMember (buf : Bytes) (wanted : Option Bytes) (first : Bool) (current last : Member)
    (closing : Closing) : Closing :=
  let key := slice buf current.key
  let value := slice buf last.value
  let out := (if first then closing.out else closing.out ++ utf8 ",") ++ key ++ utf8 ":"
  { out := out ++ value
    captured :=
      if wanted = some key then some (out.length, out.length + value.length)
      else closing.captured }

/-- The loop over the sorted members: `current` begins a run of equal keys, `last` is the last of
the run so far. -/
def closeMembers (buf : Bytes) (wanted : Option Bytes) :
    Bool → Member → Member → List Member → Closing → Closing
  | first, current, last, [], closing => closeMember buf wanted first current last closing
  | first, current, last, next :: rest, closing =>
      if cmpMembers serde buf current next = .eq then
        closeMembers buf wanted first current next rest closing
      else
        closeMembers buf wanted false next next rest
          (closeMember buf wanted first current last closing)

/-- The members of an object that closes, in order, between its braces. -/
def closeObject (buf : Bytes) (wanted : Option Bytes) (members : List Member)
    (captured : Option Range) : Closing :=
  let closing : Closing :=
    match members.insertionSort fun left right => cmpMembers serde buf left right ≠ .gt with
    | [] => ⟨openBrace, captured⟩
    | current :: rest =>
        closeMembers serde buf wanted true current current rest ⟨openBrace, captured⟩
  { closing with out := closing.out ++ closeBrace }

/-- `end_object` -/
def endObject (f : JcsFormatter) : Except String JcsFormatter :=
  match f.frames with
  | [] => .error "end_object called before begin_object"
  | (start, firstMember) :: frames =>
      let wanted := if frames.isEmpty then f.capture else none
      let closing := closeObject serde f.buf wanted (f.members.drop firstMember) f.captured
      .ok (put closing.out
        { f with
          buf := f.buf.take start
          members := f.members.take firstMember
          frames
          captured := closing.captured })

/-- `begin_object_value` -/
def beginObjectValue (f : JcsFormatter) : JcsFormatter :=
  let keyEnd := f.buf.length
  let member : Member :=
    { key := (f.keyStart, keyEnd)
      value := (keyEnd, keyEnd)
      plain := isPlain (slice f.buf (f.keyStart, keyEnd)) }
  { f with members := f.members ++ [member] }

/-- `end_object_value` -/
def endObjectValue (f : JcsFormatter) : Except String JcsFormatter :=
  match f.members.getLast? with
  | none => .error "end_object_value called before begin_object"
  | some member =>
      .ok { f with
        members := f.members.dropLast ++ [{ member with value := (member.value.1, f.buf.length) }] }

/-- One call of the formatter. -/
def step (f : JcsFormatter) : FormatterCall → Except String JcsFormatter
  | .writeNull => .ok (f.put (utf8 "null"))
  | .writeBool value => .ok (f.put (utf8 (if value then "true" else "false")))
  | .writeU64 value => f.writeF64 serde (.ofInt value.toNat)
  | .writeI64 value => f.writeF64 serde (.ofInt value.toInt)
  | .writeF64 value => f.writeF64 serde value
  | .beginString | .endString => .ok (f.put (utf8 "\""))
  | .writeStringFragment fragment => .ok (f.put (utf8 fragment))
  | .writeCharEscape escape => .ok (f.put (escapeBytes escape))
  | .beginArray => .ok (f.put (utf8 "["))
  | .endArray => .ok (f.put (utf8 "]"))
  | .beginArrayValue first => .ok (if first then f else f.put (utf8 ","))
  | .endArrayValue => .ok f
  | .beginObject => .ok { f with frames := (f.buf.length, f.members.length) :: f.frames }
  | .endObject => f.endObject serde
  | .beginObjectKey _ => .ok { f with keyStart := f.buf.length }
  | .endObjectKey => .ok f
  | .beginObjectValue => .ok f.beginObjectValue
  | .endObjectValue => f.endObjectValue

/-- A run of calls. -/
def run (calls : List FormatterCall) (f : JcsFormatter) : Except String JcsFormatter :=
  calls.foldlM (step serde) f

end Foreign

/-- `JcsFormatter::default` with a capture. -/
def initial (capture : Option Bytes) : JcsFormatter := ⟨[], [], [], [], 0, capture, none⟩

end JcsFormatter

/-- `to_vec` -/
def toVec (serde : SerdeJson) (value : Json) : Except String Bytes := do
  let f ← JcsFormatter.run serde (serde.calls value) (.initial none)
  return f.writer

/-- `to_vec_capturing` -/
def toVecCapturing (serde : SerdeJson) (value : Json) (key : String) :
    Except String (Bytes × Option Range) := do
  let f ← JcsFormatter.run serde (serde.calls value) (.initial (some (serde.toVec key)))
  return (f.writer, f.captured)

end Chronicle.Jcs
