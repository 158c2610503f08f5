import Chronicle.Checkpoint.FingerprintSink

/-!
# Fingerprints of values

A value is handed to the serializer as a tree of events. Every event begins with the tag of its
method; elements of a compound are announced by a marker, which an end marker closes.
-/

namespace Chronicle.Checkpoint

open Chronicle.Library.Bytes Chronicle.Library.PrefixCodes

/-- A text whose bytes a frame can count. -/
abbrev SizedText := { text : String // (utf8 text).length < 2 ^ 64 }

/-- Bytes that a frame can count. -/
abbrev SizedBytes := { bytes : List UInt8 // bytes.length < 2 ^ 64 }

/-! ## The events -/

/-- The methods of the scalars. -/
inductive ScalarKind where
  | bool | i8 | i16 | i32 | i64 | i128 | u8 | u16 | u32 | u64 | u128 | f32 | f64 | char
deriving DecidableEq

/-- What a scalar holds; floats are their bits. -/
def ScalarKind.Data : ScalarKind → Type
  | bool => Bool
  | i8 | u8 => BitVec 8
  | i16 | u16 => BitVec 16
  | i32 | u32 | f32 => BitVec 32
  | i64 | u64 | f64 => BitVec 64
  | i128 | u128 => BitVec 128
  | char => Char

/-- The methods that write an enum or struct name, an index, or neither. -/
inductive HeadKind where
  | none | some | unit | unitStruct | unitVariant | newtypeStruct | newtypeVariant
  | seq | tuple | tupleStruct | tupleVariant | map | struct | structVariant
deriving DecidableEq

/-- What a method is given beside the children: nothing, the name of a type, or also the index of a
variant. The name of the variant is left out: the name of the enum and the index fix it. -/
inductive Naming where
  | anonymous
  | named
  | indexed

/-- The names and indices of a method. -/
def Naming.Data : Naming → Type
  | anonymous => Unit
  | named => SizedText
  | indexed => SizedText × BitVec 32

/-- What a method is given beside the children. -/
def HeadKind.naming : HeadKind → Naming
  | none | some | unit | seq | tuple | map => .anonymous
  | unitStruct | newtypeStruct | tupleStruct | struct => .named
  | unitVariant | newtypeVariant | tupleVariant | structVariant => .indexed

/-- The forms of what follows a head. -/
inductive BodyShape where
  | nothing | one | elements | entries | fields

/-- The form of what follows a method's head. -/
def HeadKind.body : HeadKind → BodyShape
  | none | unit | unitStruct | unitVariant => .nothing
  | some | newtypeStruct | newtypeVariant => .one
  | seq | tuple | tupleStruct | tupleVariant => .elements
  | map => .entries
  | struct | structVariant => .fields

mutual

/-- The tree of the events of a value. -/
inductive Event where
  | scalar (kind : ScalarKind) (data : kind.Data)
  | str (text : SizedText)
  | bytes (bytes : SizedBytes)
  | node (kind : HeadKind) (data : kind.naming.Data) (body : Body kind.body)

/-- What follows the head of an event. -/
inductive Body : BodyShape → Type where
  | nothing : Body .nothing
  | one (value : Event) : Body .one
  | elements (elements : Elements) : Body .elements
  | entries (entries : Entries) : Body .entries
  | fields (fields : Fields) : Body .fields

/-- The elements of a sequence or a tuple. -/
inductive Elements where
  | done
  | element (value : Event) (rest : Elements)

/-- The keys and values of a map. -/
inductive Entries where
  | done
  | entry (key value : Event) (rest : Entries)

/-- The named fields of a struct. -/
inductive Fields where
  | done
  | field (key : SizedText) (value : Event) (rest : Fields)

end

/-! ## `FingerprintSerializer` -/

/-- The tags of `serialize_bool` to `serialize_char`. -/
def ScalarKind.tag : ScalarKind → UInt8
  | bool => 2
  | i8 => 3
  | i16 => 4
  | i32 => 5
  | i64 => 6
  | i128 => 7
  | u8 => 8
  | u16 => 9
  | u32 => 10
  | u64 => 11
  | u128 => 12
  | f32 => 13
  | f64 => 14
  | char => 15

/-- How many bytes `to_le_bytes` gives. -/
def ScalarKind.width : ScalarKind → Nat
  | bool | i8 | u8 => 1
  | i16 | u16 => 2
  | i32 | u32 | f32 | char => 4
  | i64 | u64 | f64 => 8
  | i128 | u128 => 16

/-- The bits of a scalar as a number. -/
def ScalarKind.bits : (kind : ScalarKind) → kind.Data → Nat
  | bool, b => Bool.toNat b
  | i8, v | u8, v => BitVec.toNat v
  | i16, v | u16, v => BitVec.toNat v
  | i32, v | u32, v | f32, v => BitVec.toNat v
  | i64, v | u64, v | f64, v => BitVec.toNat v
  | i128, v | u128, v => BitVec.toNat v
  | char, c => Char.toNat c

/-- The tags of `serialize_none` to `serialize_struct_variant`. -/
def HeadKind.tag : HeadKind → UInt8
  | none => 18
  | some => 19
  | unit => 20
  | unitStruct => 21
  | unitVariant => 22
  | newtypeStruct => 23
  | newtypeVariant => 24
  | seq => 25
  | tuple => 26
  | tupleStruct => 27
  | tupleVariant => 28
  | map => 29
  | struct => 30
  | structVariant => 31

/-- The calls of a method before it turns to the children. -/
def headCalls (tag : UInt8) : (naming : Naming) → naming.Data → List SinkCall
  | .anonymous, _ => [.tag tag]
  | .named, name => [.frame tag (utf8 (Subtype.val name))]
  | .indexed, (name, variantIndex) =>
      [.frame tag (utf8 name.val), .write (leBytes 4 variantIndex.toNat)]

mutual

/-- The calls on the sink for an event. -/
def Event.calls : Event → List SinkCall
  | .scalar kind data => [.tag kind.tag, .write (leBytes kind.width (kind.bits data))]
  | .str text => [.frame 16 (utf8 text.val)]
  | .bytes data => [.frame 17 data.val]
  | .node kind data body => headCalls kind.tag kind.naming data ++ body.calls

/-- The calls for what follows a head. -/
def Body.calls : {shape : BodyShape} → Body shape → List SinkCall
  | _, .nothing => []
  | _, .one value => value.calls
  | _, .elements elements => elements.calls
  | _, .entries entries => entries.calls
  | _, .fields fields => fields.calls

/-- `FingerprintCompound::element` for each element, and the end marker. -/
def Elements.calls : Elements → List SinkCall
  | .done => [.tag 0]
  | .element value rest => .tag 1 :: value.calls ++ rest.calls

/-- Key and value are two elements. -/
def Entries.calls : Entries → List SinkCall
  | .done => [.tag 0]
  | .entry key value rest => .tag 1 :: key.calls ++ .tag 1 :: value.calls ++ rest.calls

/-- The `serialize_field` of a struct, and the end marker. -/
def Fields.calls : Fields → List SinkCall
  | .done => [.tag 0]
  | .field key value rest => .frame 1 (utf8 key.val) :: value.calls ++ rest.calls

end

/-- The bytes that a value feeds to the hasher. -/
def Event.stream (value : Event) : List UInt8 := hashedBytes value.calls

/-- `value_fingerprint`, with the 128-bit digest of the bytes that the hasher receives. -/
def valueFingerprint (digest128 : List UInt8 → BitVec 128) (value : Event) : List UInt8 :=
  leBytes 16 (digest128 value.stream).toNat

/-! ## The bytes of the parts -/

/-- The bytes of calls. -/
abbrev bytesOf (calls : List SinkCall) : List UInt8 := calls.flatMap SinkCall.bytes

theorem ScalarKind.tag_inj {kind kind' : ScalarKind} (h : kind.tag = kind'.tag) : kind = kind' := by
  cases kind <;> cases kind' <;> first | rfl | exact absurd h (by decide)

theorem HeadKind.tag_inj {kind kind' : HeadKind} (h : kind.tag = kind'.tag) : kind = kind' := by
  cases kind <;> cases kind' <;> first | rfl | exact absurd h (by decide)

theorem ScalarKind.bits_lt (kind : ScalarKind) (data : kind.Data) :
    kind.bits data < 256 ^ kind.width := by
  cases kind with
  | bool => exact (Bool.toNat_lt data).trans (by decide)
  | char => exact (UInt32.toNat_lt (Char.val data)).trans_eq (by decide)
  | _ => exact BitVec.isLt data

theorem ScalarKind.bits_inj (kind : ScalarKind) {data data' : kind.Data}
    (h : kind.bits data = kind.bits data') : data = data' := by
  cases kind with
  | bool =>
    cases data <;> cases data' <;> first | rfl | cases h
  | char => exact Char.ext (UInt32.toNat_inj.mp h)
  | _ => exact BitVec.eq_of_toNat_eq h

/-- The bytes of a scalar behind its tag are told from what follows them. -/
theorem ScalarKind.split (kind : ScalarKind) {data data' : kind.Data} {s t : List UInt8}
    (h : leBytes kind.width (kind.bits data) ++ s = leBytes kind.width (kind.bits data') ++ t) :
    data = data' ∧ s = t :=
  let ⟨hbits, hrest⟩ :=
    delimits_leBytes kind.width (kind.bits_lt data) (kind.bits_lt data') h
  ⟨kind.bits_inj hbits, hrest⟩

/-- A counted text is told from what follows it. -/
theorem split_text {text text' : SizedText} {s t : List UInt8}
    (h : counted (utf8 text.val) ++ s = counted (utf8 text'.val) ++ t) : text = text' ∧ s = t :=
  let ⟨htext, hrest⟩ := delimits_text text.property text'.property h
  ⟨Subtype.ext htext, hrest⟩

/-- The bytes of a head behind its tag. -/
def nameBytes : (naming : Naming) → naming.Data → List UInt8
  | .anonymous, _ => []
  | .named, name => counted (utf8 (Subtype.val name))
  | .indexed, (name, variantIndex) => counted (utf8 name.val) ++ leBytes 4 variantIndex.toNat

theorem bytesOf_headCalls (tag : UInt8) (naming : Naming) (data : naming.Data) :
    bytesOf (headCalls tag naming data) = tag :: nameBytes naming data := by
  cases naming with
  | anonymous => rfl
  | named => exact List.append_nil _
  | indexed =>
    obtain ⟨name, variantIndex⟩ := data
    simp [bytesOf, headCalls, nameBytes, SinkCall.bytes]

theorem split_nameBytes (naming : Naming) {data data' : naming.Data} {s t : List UInt8}
    (h : nameBytes naming data ++ s = nameBytes naming data' ++ t) : data = data' ∧ s = t := by
  cases naming with
  | anonymous => exact ⟨rfl, h⟩
  | named => exact split_text h
  | indexed =>
    obtain ⟨name, variantIndex⟩ := data
    obtain ⟨name', variantIndex'⟩ := data'
    rw [nameBytes, nameBytes, List.append_assoc, List.append_assoc] at h
    obtain ⟨rfl, hlater⟩ := split_text h
    obtain ⟨hindex, hrest⟩ := delimits_leBytes 4 variantIndex.isLt variantIndex'.isLt hlater
    exact ⟨congrArg (name, ·) (BitVec.eq_of_toNat_eq hindex), hrest⟩

/-! ## The bytes of a tree -/

/-- The tag of an event. -/
def Event.tag : Event → UInt8
  | .scalar kind _ => kind.tag
  | .str _ => 16
  | .bytes _ => 17
  | .node kind _ _ => kind.tag

/-- The bytes of an event behind its tag. -/
def Event.rest : Event → List UInt8
  | .scalar kind data => leBytes kind.width (kind.bits data)
  | .str text => counted (utf8 text.val)
  | .bytes data => counted data.val
  | .node kind data body => nameBytes kind.naming data ++ bytesOf body.calls

theorem bytesOf_event (value : Event) : bytesOf value.calls = value.tag :: value.rest := by
  cases value with
  | scalar kind data => simp [bytesOf, Event.calls, Event.tag, Event.rest, SinkCall.bytes]
  | str text => simp [bytesOf, Event.calls, Event.tag, Event.rest, SinkCall.bytes]
  | bytes data => simp [bytesOf, Event.calls, Event.tag, Event.rest, SinkCall.bytes]
  | node kind data body =>
    have hhead := bytesOf_headCalls kind.tag kind.naming data
    unfold bytesOf at hhead
    rw [Event.calls, bytesOf, List.flatMap_append, hhead, List.cons_append]
    rfl

/-- The constructor that a tag belongs to. -/
def formOf (tag : UInt8) : Nat :=
  if tag < 16 then 0 else if tag = 16 then 1 else if tag = 17 then 2 else 3

/-- The constructor of an event. -/
def Event.form : Event → Nat
  | .scalar _ _ => 0
  | .str _ => 1
  | .bytes _ => 2
  | .node _ _ _ => 3

theorem Event.formOf_tag (value : Event) : formOf value.tag = value.form := by
  cases value with
  | scalar kind data => cases kind <;> rfl
  | str text => rfl
  | bytes data => rfl
  | node kind data body => cases kind <;> rfl

theorem bytesOf_element (value : Event) (rest : Elements) :
    bytesOf (Elements.element value rest).calls =
      1 :: bytesOf value.calls ++ bytesOf rest.calls := by
  simp [bytesOf, Elements.calls, SinkCall.bytes]

theorem bytesOf_entry (key value : Event) (rest : Entries) :
    bytesOf (Entries.entry key value rest).calls =
      1 :: bytesOf key.calls ++ 1 :: bytesOf value.calls ++ bytesOf rest.calls := by
  simp [bytesOf, Entries.calls, SinkCall.bytes]

theorem bytesOf_field (key : SizedText) (value : Event) (rest : Fields) :
    bytesOf (Fields.field key value rest).calls =
      1 :: counted (utf8 key.val) ++ bytesOf value.calls ++ bytesOf rest.calls := by
  simp [bytesOf, Fields.calls, SinkCall.bytes]

mutual

/-- Two values with equal bytes in front of anything are equal. -/
theorem Event.split (v w : Event) {s t : List UInt8}
    (h : bytesOf v.calls ++ s = bytesOf w.calls ++ t) : v = w ∧ s = t := by
  rw [bytesOf_event, bytesOf_event] at h
  obtain ⟨htag, hrest⟩ := List.cons.inj h
  have hform : v.form = w.form := by rw [← v.formOf_tag, htag, w.formOf_tag]
  match v, w with
  | .scalar kind data, .scalar kind' data' =>
    obtain rfl := ScalarKind.tag_inj htag
    obtain ⟨rfl, hs⟩ := kind.split hrest
    exact ⟨rfl, hs⟩
  | .str text, .str text' =>
    obtain ⟨rfl, hs⟩ := split_text hrest
    exact ⟨rfl, hs⟩
  | .bytes data, .bytes data' =>
    obtain ⟨hbytes, hs⟩ := delimits_counted data.property data'.property hrest
    exact ⟨congrArg Event.bytes (Subtype.ext hbytes), hs⟩
  | .node kind data body, .node kind' data' body' =>
    obtain rfl := HeadKind.tag_inj htag
    have hparts : nameBytes kind.naming data ++ (bytesOf body.calls ++ s) =
        nameBytes kind.naming data' ++ (bytesOf body'.calls ++ t) := by
      rw [← List.append_assoc, ← List.append_assoc]
      exact hrest
    obtain ⟨rfl, hbody⟩ := split_nameBytes kind.naming hparts
    obtain ⟨rfl, hs⟩ := Body.split body body' hbody
    exact ⟨rfl, hs⟩
termination_by structural v

theorem Body.split {shape : BodyShape} (b b' : Body shape) {s t : List UInt8}
    (h : bytesOf b.calls ++ s = bytesOf b'.calls ++ t) : b = b' ∧ s = t := by
  match b, b' with
  | .nothing, .nothing => exact ⟨rfl, h⟩
  | .one value, .one value' =>
    obtain ⟨rfl, hs⟩ := Event.split value value' h
    exact ⟨rfl, hs⟩
  | .elements elements, .elements elements' =>
    obtain ⟨rfl, hs⟩ := Elements.split elements elements' h
    exact ⟨rfl, hs⟩
  | .entries entries, .entries entries' =>
    obtain ⟨rfl, hs⟩ := Entries.split entries entries' h
    exact ⟨rfl, hs⟩
  | .fields fields, .fields fields' =>
    obtain ⟨rfl, hs⟩ := Fields.split fields fields' h
    exact ⟨rfl, hs⟩
termination_by structural b

theorem Elements.split (l l' : Elements) {s t : List UInt8}
    (h : bytesOf l.calls ++ s = bytesOf l'.calls ++ t) : l = l' ∧ s = t := by
  match l, l' with
  | .done, .done => exact ⟨rfl, (List.cons.inj h).2⟩
  | .done, .element _ _ => exact absurd (List.cons.inj h).1 (by decide)
  | .element _ _, .done => exact absurd (List.cons.inj h).1 (by decide)
  | .element value rest, .element value' rest' =>
    simp only [bytesOf_element, List.cons_append, List.append_assoc] at h
    obtain ⟨rfl, hrest⟩ := Event.split value value' (List.cons.inj h).2
    obtain ⟨rfl, hs⟩ := Elements.split rest rest' hrest
    exact ⟨rfl, hs⟩
termination_by structural l

theorem Entries.split (l l' : Entries) {s t : List UInt8}
    (h : bytesOf l.calls ++ s = bytesOf l'.calls ++ t) : l = l' ∧ s = t := by
  match l, l' with
  | .done, .done => exact ⟨rfl, (List.cons.inj h).2⟩
  | .done, .entry _ _ _ => exact absurd (List.cons.inj h).1 (by decide)
  | .entry _ _ _, .done => exact absurd (List.cons.inj h).1 (by decide)
  | .entry key value rest, .entry key' value' rest' =>
    simp only [bytesOf_entry, List.cons_append, List.append_assoc] at h
    obtain ⟨rfl, hvalue⟩ := Event.split key key' (List.cons.inj h).2
    obtain ⟨rfl, hrest⟩ := Event.split value value' (List.cons.inj hvalue).2
    obtain ⟨rfl, hs⟩ := Entries.split rest rest' hrest
    exact ⟨rfl, hs⟩
termination_by structural l

theorem Fields.split (l l' : Fields) {s t : List UInt8}
    (h : bytesOf l.calls ++ s = bytesOf l'.calls ++ t) : l = l' ∧ s = t := by
  match l, l' with
  | .done, .done => exact ⟨rfl, (List.cons.inj h).2⟩
  | .done, .field _ _ _ => exact absurd (List.cons.inj h).1 (by decide)
  | .field _ _ _, .done => exact absurd (List.cons.inj h).1 (by decide)
  | .field key value rest, .field key' value' rest' =>
    simp only [bytesOf_field, List.cons_append, List.append_assoc] at h
    obtain ⟨rfl, hvalue⟩ := split_text (List.cons.inj h).2
    obtain ⟨rfl, hrest⟩ := Event.split value value' hvalue
    obtain ⟨rfl, hs⟩ := Fields.split rest rest' hrest
    exact ⟨rfl, hs⟩
termination_by structural l

end

theorem Event.stream_eq (value : Event) : value.stream = bytesOf value.calls :=
  hashedBytes_eq value.calls

/-- Whatever the calls are, their bytes reach the hasher one after the other. Different values feed
it streams of which neither is a prefix of the other, and values with equal fingerprints are equal
unless the digest collides on their streams. -/
theorem fingerprints_spec :
    (∀ calls : List SinkCall, hashedBytes calls = calls.flatMap SinkCall.bytes) ∧
    (∀ v w : Event, v ≠ w → v.stream ≠ w.stream ∧ ¬v.stream <+: w.stream) ∧
    ∀ (digest128 : List UInt8 → BitVec 128) (v w : Event),
      (digest128 v.stream = digest128 w.stream → v.stream = w.stream) →
      valueFingerprint digest128 v = valueFingerprint digest128 w → v = w := by
  have hbegins : ∀ v w : Event, v.stream <+: w.stream → v = w := by
    rintro v w ⟨later, h⟩
    rw [v.stream_eq, w.stream_eq, ← List.append_nil (bytesOf w.calls)] at h
    exact (Event.split v w h).1
  have hinj : ∀ v w : Event, v.stream = w.stream → v = w := fun v w h =>
    hbegins v w (h ▸ List.prefix_refl _)
  refine ⟨hashedBytes_eq, fun v w hne => ⟨fun h => hne (hinj v w h), fun h => hne (hbegins v w h)⟩,
    fun digest128 v w hfree h => hinj v w (hfree ?_)⟩
  exact BitVec.eq_of_toNat_eq (leBytes_inj (BitVec.isLt _) (BitVec.isLt _) h)

/-- The digest that keeps the first sixteen bytes. -/
def firstBytes (bytes : List UInt8) : BitVec 128 := BitVec.ofNat 128 (leValue (bytes.take 16))

theorem fingerprints_of_scalars :
    valueFingerprint firstBytes (.scalar .bool true) ≠
      valueFingerprint firstBytes (.scalar .bool false) := by
  have hstreams : (Event.scalar .bool true).stream ≠ (Event.scalar .bool false).stream := by
    decide
  intro h
  have hdigests : firstBytes (Event.scalar .bool true).stream ≠
      firstBytes (Event.scalar .bool false).stream := by
    decide
  have heq := fingerprints_spec.2.2 firstBytes (.scalar .bool true) (.scalar .bool false)
    (fun hsame => absurd hsame hdigests) h
  exact hstreams (congrArg Event.stream heq)

end Chronicle.Checkpoint
