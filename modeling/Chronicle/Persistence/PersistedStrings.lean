import Chronicle.Library.Stages
import Chronicle.Library.Varint

/-!
# Persisted strings

A string is written in full the first time, with the number of strings written before it, and as that
number from then on. The reader builds the same table as the writer. It accepts only definitions in
their order and references to strings that it has seen.
-/

namespace Chronicle.Persistence

open Chronicle.Library

/-- `PersistedString`, and `PersistedStringRef` -/
structure PersistedString where
  id : Nat
  value : Option String
deriving DecidableEq, Repr

/-- The serializer and the deserializer of the record, and what follows a record that was read. -/
structure RecordFormat where
  write : PersistedString → List UInt8
  read : List UInt8 → Except String (PersistedString × List UInt8)

/-- `PersistedStringEncoder` -/
abbrev PersistedStringEncoder := List (String × Nat)

/-- `PersistedStringDecoder` -/
abbrev PersistedStringDecoder := List String

/-- `u32::MAX` -/
def u32Max : Nat := 4294967295

/-- A record is read back whatever follows it. -/
def RecordFormat.ReadsBack (format : RecordFormat) : Prop :=
  ∀ persisted rest, persisted.id ≤ u32Max →
    format.read (format.write persisted ++ rest) = .ok (persisted, rest)

/-! ## One string -/

/-- The id in the table and whether it is new. -/
def PersistedStringEncoder.enter (value : String) :
    Option PersistedStringEncoder → Except String (PersistedString × Option PersistedStringEncoder)
  | none => .error "binary Chronicle row serialization requires a string table"
  | some table =>
      match table.lookup value with
      | some id => .ok (⟨id, none⟩, some table)
      | none =>
          if table.length ≤ u32Max then
            .ok (⟨table.length, some value⟩, some ((value, table.length) :: table))
          else .error "Chronicle row string table exceeds u32"

/-- `static_lineage_text` -/
def staticLineageText (value : String) : Option String :=
  ["chronicle-lineage-search/v1", "selected-qualifying-stop", "no-qualifying-stop",
    "device-state-split-fragment", "screen-credit-liveness-window", "pipeline-event-order",
    "participant-source-event-order"].find? (· == value)

/-- The string of a record, and the table after it. -/
def PersistedStringDecoder.resolve (persisted : PersistedString) :
    Option PersistedStringDecoder → Except String (String × Option PersistedStringDecoder)
  | none => .error "binary Chronicle row deserialization requires a string table"
  | some table =>
      match persisted.value with
      | some value =>
          if persisted.id ≠ table.length then
            .error "Chronicle row string definition is out of order"
          else
            let shared := (staticLineageText value).getD value
            .ok (shared, some (table ++ [shared]))
      | none =>
          match table[persisted.id]? with
          | some value => .ok (value, some table)
          | none => .error "Chronicle row string reference is undefined"

variable (format : RecordFormat)

/-- `serialize_persisted_string` -/
def serializePersistedString (slot : Option PersistedStringEncoder) (value : String) :
    Except String (List UInt8 × Option PersistedStringEncoder) := do
  let (persisted, slot) ← PersistedStringEncoder.enter value slot
  pure (format.write persisted, slot)

/-- `deserialize_persisted_string` -/
def deserializePersistedString (slot : Option PersistedStringDecoder) (bytes : List UInt8) :
    Except String (String × List UInt8 × Option PersistedStringDecoder) := do
  let (persisted, rest) ← format.read bytes
  let (value, slot) ← PersistedStringDecoder.resolve persisted slot
  pure (value, rest, slot)

/-! ## A sequence of strings -/

/-- The strings of a payload, one after the other. -/
def serializeStrings : Option PersistedStringEncoder → List String → Except String (List UInt8)
  | _, [] => .ok []
  | slot, value :: values => do
      let (bytes, slot) ← serializePersistedString format slot value
      let rest ← serializeStrings slot values
      pure (bytes ++ rest)

/-- As many strings as the payload is said to have, and what follows them. -/
def deserializeStrings : Option PersistedStringDecoder → Nat → List UInt8 →
    Except String (List String × List UInt8)
  | _, 0, bytes => .ok ([], bytes)
  | slot, count + 1, bytes => do
      let (value, rest, slot) ← deserializePersistedString format slot bytes
      let (values, rest) ← deserializeStrings slot count rest
      pure (value :: values, rest)

/-- `with_serialized_row_string_table` around the strings of a payload. -/
def encodeStrings (values : List String) : Except String (List UInt8) :=
  serializeStrings format (some []) values

/-- `with_deserialized_row_string_pool` around the strings of a payload. -/
def decodeStrings (count : Nat) (bytes : List UInt8) : Except String (List String × List UInt8) :=
  deserializeStrings format (some []) count bytes

/-- The records of a payload alone, and what follows them. -/
def readRecords : Nat → List UInt8 → Except String (List PersistedString × List UInt8)
  | 0, bytes => .ok ([], bytes)
  | count + 1, bytes => do
      let (persisted, rest) ← format.read bytes
      let (records, rest) ← readRecords count rest
      pure (persisted :: records, rest)

/-- The strings that records stand for, after the strings of a table. -/
inductive Resolves : List String → List PersistedString → List String → Prop where
  | nil (table) : Resolves table [] []
  | define {table value records values} (rest : Resolves (table ++ [value]) records values) :
      Resolves table (⟨table.length, some value⟩ :: records) (value :: values)
  | refer {table id value records values} (known : table[id]? = some value)
      (rest : Resolves table records values) :
      Resolves table (⟨id, none⟩ :: records) (value :: values)

/-! ## The tables of the writer and the reader -/

/-- The writer knows the reader's strings by their places. -/
structure Agree (writer : PersistedStringEncoder) (reader : PersistedStringDecoder) : Prop where
  length : writer.length = reader.length
  fits : writer.length ≤ u32Max + 1
  place : ∀ value id, writer.lookup value = some id → reader[id]? = some value

variable {format} {writer : PersistedStringEncoder} {reader : PersistedStringDecoder}

theorem staticLineageText_getD (value : String) : (staticLineageText value).getD value = value := by
  cases hstatic : staticLineageText value with
  | none => rfl
  | some shared =>
      have hequal := List.find?_some hstatic
      exact eq_of_beq hequal

/-- The reader resolves what the writer entered, and both tables keep step. -/
theorem Agree.enter (h : Agree writer reader) {value : String} {persisted : PersistedString}
    {slot : Option PersistedStringEncoder}
    (henter : PersistedStringEncoder.enter value (some writer) = .ok (persisted, slot)) :
    persisted.id ≤ u32Max ∧ ∃ writer' reader', slot = some writer' ∧
      PersistedStringDecoder.resolve persisted (some reader) = .ok (value, some reader') ∧
      Agree writer' reader' := by
  unfold PersistedStringEncoder.enter at henter
  cases hlookup : writer.lookup value with
  | some id =>
      simp only [hlookup] at henter
      obtain ⟨rfl, rfl⟩ := Prod.mk.inj (Except.ok.inj henter)
      have hplace := h.place value id hlookup
      obtain ⟨hlt, -⟩ := List.getElem?_eq_some_iff.mp hplace
      have hlength := h.length
      have hfits := h.fits
      refine ⟨by show id ≤ u32Max; omega, writer, reader, rfl, ?_, h⟩
      simp only [PersistedStringDecoder.resolve, hplace]
  | none =>
      simp only [hlookup] at henter
      split at henter
      · rename_i hroom
        obtain ⟨rfl, rfl⟩ := Prod.mk.inj (Except.ok.inj henter)
        refine ⟨hroom, (value, writer.length) :: writer, reader ++ [value], rfl, ?_, ?_⟩
        · simp only [PersistedStringDecoder.resolve, staticLineageText_getD, h.length, ne_eq,
            not_true_eq_false, if_false]
        · refine ⟨by simp [h.length], Nat.succ_le_succ hroom, fun other id hother => ?_⟩
          rw [List.lookup_cons] at hother
          split at hother
          · rename_i hsame
            obtain rfl := Option.some.inj hother
            rw [h.length, List.getElem?_concat_length, eq_of_beq hsame]
          · have hold := h.place other id hother
            rw [List.getElem?_append_left (List.getElem?_eq_some_iff.mp hold).1, hold]
      · exact absurd henter (by simp)

/-- A record that is read and resolved gives the first string. -/
theorem deserializeStrings_succ {slot : Option PersistedStringDecoder}
    {persisted : PersistedString} {value : String} {bytes after rest : List UInt8} {count : Nat}
    {values : List String} (hread : format.read bytes = .ok (persisted, after))
    (hresolve : PersistedStringDecoder.resolve persisted (some reader) = .ok (value, slot))
    (hmore : deserializeStrings format slot count after = .ok (values, rest)) :
    deserializeStrings format (some reader) (count + 1) bytes = .ok (value :: values, rest) := by
  refine Stages.bind_eq_ok.mpr ⟨(value, after, slot), ?_, ?_⟩
  · exact Stages.bind_eq_ok.mpr ⟨_, hread, Stages.bind_eq_ok.mpr ⟨_, hresolve, rfl⟩⟩
  · exact Stages.bind_eq_ok.mpr ⟨_, hmore, rfl⟩

/-- What was written is read back. -/
theorem deserializeStrings_serializeStrings (hformat : format.ReadsBack)
    (h : Agree writer reader) {values : List String} {bytes : List UInt8}
    (hwrite : serializeStrings format (some writer) values = .ok bytes) (rest : List UInt8) :
    deserializeStrings format (some reader) values.length (bytes ++ rest) = .ok (values, rest) := by
  induction values generalizing writer reader bytes with
  | nil =>
      obtain rfl := Except.ok.inj hwrite
      rfl
  | cons value values ih =>
      obtain ⟨⟨first, slot⟩, hfirst, hwrite⟩ := Stages.bind_eq_ok.mp hwrite
      obtain ⟨⟨persisted, _⟩, henter, hfirst⟩ := Stages.bind_eq_ok.mp hfirst
      obtain ⟨rfl, rfl⟩ := Prod.mk.inj (Except.ok.inj hfirst)
      obtain ⟨hid, writer', reader', rfl, hresolve, hagree⟩ := h.enter henter
      obtain ⟨more, hmore, hwrite⟩ := Stages.bind_eq_ok.mp hwrite
      obtain rfl := Except.ok.inj hwrite
      rw [List.length_cons, List.append_assoc]
      exact deserializeStrings_succ (hformat _ _ hid) hresolve (ih hagree hmore)

/-! ## What is accepted -/

/-- The only records that resolve: the next definition, and a reference into the table. -/
theorem resolve_eq_ok {persisted : PersistedString} {value : String}
    {slot : Option PersistedStringDecoder} :
    PersistedStringDecoder.resolve persisted (some reader) = .ok (value, slot) ↔
      (persisted = ⟨reader.length, some value⟩ ∧ slot = some (reader ++ [value])) ∨
        ∃ id, persisted = ⟨id, none⟩ ∧ reader[id]? = some value ∧ slot = some reader := by
  obtain ⟨id, written⟩ := persisted
  cases written with
  | some written =>
      simp only [PersistedStringDecoder.resolve, staticLineageText_getD, Stages.ite_error_eq_ok]
      simp
      grind
  | none =>
      simp only [PersistedStringDecoder.resolve]
      cases hknown : reader[id]? with
      | some known => simp; grind
      | none => simp; grind

/-- The reader accepts the records that stand for strings, and no others. -/
theorem deserializeStrings_eq_ok {count : Nat} {bytes rest : List UInt8} {values : List String} :
    deserializeStrings format (some reader) count bytes = .ok (values, rest) ↔
      ∃ records, readRecords format count bytes = .ok (records, rest) ∧
        Resolves reader records values := by
  induction count generalizing reader bytes values with
  | zero =>
      constructor
      · intro h
        obtain ⟨rfl, rfl⟩ := Prod.mk.inj (Except.ok.inj h)
        exact ⟨[], rfl, .nil _⟩
      · rintro ⟨records, hread, hresolves⟩
        obtain ⟨rfl, rfl⟩ := Prod.mk.inj (Except.ok.inj hread)
        cases hresolves
        rfl
  | succ count ih =>
      constructor
      · intro h
        obtain ⟨⟨value, _, slot⟩, hvalue, h⟩ := Stages.bind_eq_ok.mp h
        obtain ⟨⟨persisted, after⟩, hread, hvalue⟩ := Stages.bind_eq_ok.mp hvalue
        obtain ⟨⟨_, _⟩, hresolve, hfirst⟩ := Stages.bind_eq_ok.mp hvalue
        obtain ⟨rfl, hpair⟩ := Prod.mk.inj (Except.ok.inj hfirst)
        obtain ⟨rfl, rfl⟩ := Prod.mk.inj hpair
        obtain ⟨⟨more, _⟩, hmore, h⟩ := Stages.bind_eq_ok.mp h
        obtain ⟨rfl, rfl⟩ := Prod.mk.inj (Except.ok.inj h)
        rcases resolve_eq_ok.mp hresolve with ⟨rfl, rfl⟩ | ⟨id, rfl, hknown, rfl⟩
        · obtain ⟨records, hrecords, hresolves⟩ := ih.mp hmore
          exact ⟨_, Stages.bind_eq_ok.mpr ⟨_, hread, Stages.bind_eq_ok.mpr ⟨_, hrecords, rfl⟩⟩,
            .define hresolves⟩
        · obtain ⟨records, hrecords, hresolves⟩ := ih.mp hmore
          exact ⟨_, Stages.bind_eq_ok.mpr ⟨_, hread, Stages.bind_eq_ok.mpr ⟨_, hrecords, rfl⟩⟩,
            .refer hknown hresolves⟩
      · rintro ⟨records, hread, hresolves⟩
        obtain ⟨⟨persisted, after⟩, hpersisted, hread⟩ := Stages.bind_eq_ok.mp hread
        obtain ⟨⟨more, _⟩, hmore, hread⟩ := Stages.bind_eq_ok.mp hread
        obtain ⟨rfl, rfl⟩ := Prod.mk.inj (Except.ok.inj hread)
        cases hresolves with
        | define hrest =>
            exact deserializeStrings_succ hpersisted (resolve_eq_ok.mpr (Or.inl ⟨rfl, rfl⟩))
              (ih.mpr ⟨more, hmore, hrest⟩)
        | refer hknown hrest =>
            exact deserializeStrings_succ hpersisted
              (resolve_eq_ok.mpr (Or.inr ⟨_, rfl, hknown, rfl⟩)) (ih.mpr ⟨more, hmore, hrest⟩)

/-- Every definition bears the number of definitions before it, and every reference the number of an
earlier definition of its string. -/
structure Refers (records : List PersistedString) (values : List String) : Prop where
  length : records.length = values.length
  definitions : ∀ (i id : Nat) (value : String), records[i]? = some (PersistedString.mk id (some value)) →
    id = (records.take i).countP (·.value.isSome) ∧ values[i]? = some value
  references : ∀ i id : Nat, records[i]? = some (PersistedString.mk id none) →
    ∃ (j : Nat) (value : String), j < i ∧ records[j]? = some (PersistedString.mk id (some value)) ∧
      values[i]? = some value

/-- The same after the strings of a table. -/
structure RefersAfter (table : List String) (records : List PersistedString)
    (values : List String) : Prop where
  length : records.length = values.length
  definitions : ∀ (i id : Nat) (value : String), records[i]? = some (PersistedString.mk id (some value)) →
    id = table.length + (records.take i).countP (·.value.isSome) ∧ values[i]? = some value
  references : ∀ i id : Nat, records[i]? = some (PersistedString.mk id none) →
    ∃ value, values[i]? = some value ∧ (table[id]? = some value ∨
      ∃ j : Nat, j < i ∧ records[j]? = some (PersistedString.mk id (some value)))

theorem Resolves.refersAfter {table : List String} {records : List PersistedString}
    {values : List String} (h : Resolves table records values) :
    RefersAfter table records values := by
  induction h with
  | nil table => exact ⟨rfl, fun i id value h => by simp at h, fun i id h => by simp at h⟩
  | @define table value records values rest ih =>
      refine ⟨by simp [ih.length], fun i id other hi => ?_, fun i id hi => ?_⟩
      · -- definitions: a later one is numbered after this one
        cases i with
        | zero =>
            obtain ⟨rfl, hvalue⟩ := PersistedString.mk.inj (Option.some.inj hi)
            exact ⟨rfl, hvalue⟩
        | succ i =>
            obtain ⟨hid, hvalue⟩ := ih.definitions i id other hi
            refine ⟨?_, hvalue⟩
            rw [List.length_append, List.length_singleton] at hid
            rw [hid, List.take_succ_cons, List.countP_cons_of_pos rfl]
            omega
      · -- references: their string is in the table or defined further on
        cases i with
        | zero => simp at hi
        | succ i =>
            obtain ⟨other, hvalue, hsource⟩ := ih.references i id hi
            refine ⟨other, hvalue, ?_⟩
            rcases hsource with htable | ⟨j, hj, hrecord⟩
            · rw [List.getElem?_append] at htable
              split at htable
              · exact Or.inl htable
              · -- the string is the one that this definition adds to the table
                rename_i hid
                obtain ⟨hlast, hother⟩ := List.getElem?_eq_some_iff.mp htable
                rw [List.length_singleton] at hlast
                obtain rfl : id = table.length := by omega
                refine Or.inr ⟨0, Nat.succ_pos i, ?_⟩
                rw [← hother]
                simp
            · exact Or.inr ⟨j + 1, Nat.succ_lt_succ hj, hrecord⟩
  -- a reference adds nothing to the table, so both counts stay as they were
  | @refer table id value records values known rest ih =>
      refine ⟨by simp [ih.length], fun i other written hi => ?_, fun i other hi => ?_⟩
      · cases i with
        | zero => simp at hi
        | succ i =>
            obtain ⟨hid, hvalue⟩ := ih.definitions i other written hi
            refine ⟨?_, hvalue⟩
            rw [hid, List.take_succ_cons, List.countP_cons_of_neg (by simp)]
      · cases i with
        | zero =>
            obtain ⟨rfl, -⟩ := PersistedString.mk.inj (Option.some.inj hi)
            exact ⟨value, rfl, Or.inl known⟩
        | succ i =>
            obtain ⟨written, hvalue, hsource⟩ := ih.references i other hi
            refine ⟨written, hvalue, hsource.imp_right ?_⟩
            rintro ⟨j, hj, hrecord⟩
            exact ⟨j + 1, Nat.succ_lt_succ hj, hrecord⟩

theorem Resolves.refers {records : List PersistedString} {values : List String}
    (h : Resolves [] records values) : Refers records values := by
  have hafter := h.refersAfter
  refine ⟨hafter.length, fun i id value hi => ?_, fun i id hi => ?_⟩
  · obtain ⟨hid, hvalue⟩ := hafter.definitions i id value hi
    exact ⟨by simpa using hid, hvalue⟩
  · obtain ⟨value, hvalue, htable | ⟨j, hj, hrecord⟩⟩ := hafter.references i id hi
    · simp at htable
    · exact ⟨j, value, hj, hrecord, hvalue⟩

/-- The record does not fit what comes before it: a definition out of order, or a reference to a
string that no record defines. -/
def Misplaced (before : List PersistedString) (persisted : PersistedString) : Prop :=
  match persisted.value with
  | some _ => persisted.id ≠ before.countP (·.value.isSome)
  | none => ∀ earlier ∈ before, earlier.value.isSome → earlier.id ≠ persisted.id

/-- The first records do not depend on how many are read. -/
theorem readRecords_take {count m : Nat} {bytes rest rest' : List UInt8}
    {records first : List PersistedString} (hm : m ≤ count)
    (h : readRecords format count bytes = .ok (records, rest))
    (hfirst : readRecords format m bytes = .ok (first, rest')) : first = records.take m := by
  induction m generalizing count bytes records first with
  | zero =>
      obtain ⟨rfl, -⟩ := Prod.mk.inj (Except.ok.inj hfirst)
      rfl
  | succ m ih =>
      obtain ⟨count, rfl⟩ := Nat.exists_eq_add_of_lt hm
      obtain ⟨⟨persisted, after⟩, hread, h⟩ := Stages.bind_eq_ok.mp h
      obtain ⟨⟨more, _⟩, hmore, h⟩ := Stages.bind_eq_ok.mp h
      obtain ⟨rfl, rfl⟩ := Prod.mk.inj (Except.ok.inj h)
      obtain ⟨⟨_, _⟩, hread', hfirst⟩ := Stages.bind_eq_ok.mp hfirst
      obtain ⟨rfl, rfl⟩ := Prod.mk.inj (Except.ok.inj (hread.symm.trans hread'))
      obtain ⟨⟨more', _⟩, hmore', hfirst⟩ := Stages.bind_eq_ok.mp hfirst
      obtain ⟨rfl, rfl⟩ := Prod.mk.inj (Except.ok.inj hfirst)
      rw [List.take_succ_cons, ih (Nat.le_add_right m count) hmore hmore']

/-- A misplaced record is not among those that refer to earlier ones. -/
theorem Refers.not_misplaced {records : List PersistedString} {values : List String}
    (h : Refers records values) {n : Nat} {persisted : PersistedString}
    (hrecord : records[n]? = some persisted) : ¬Misplaced (records.take n) persisted := by
  obtain ⟨id, value⟩ := persisted
  intro hmisplaced
  cases value with
  | some value => exact hmisplaced (h.definitions n id value hrecord).1
  | none =>
      obtain ⟨j, value, hj, hearlier, -⟩ := h.references n id hrecord
      refine hmisplaced ⟨id, some value⟩ ?_ rfl rfl
      exact List.mem_of_getElem? (by rw [List.getElem?_take_of_lt hj, hearlier])

/-- The strings of every sequence that was written are read back. Whatever the bytes, the strings
that are read belong to records that define each string before they refer to it, and a misplaced
record is refused. -/
theorem persisted_strings_round_trip (hformat : format.ReadsBack) :
    (∀ values bytes rest, encodeStrings format values = .ok bytes →
      decodeStrings format values.length (bytes ++ rest) = .ok (values, rest)) ∧
    (∀ count bytes values rest, decodeStrings format count bytes = .ok (values, rest) →
      ∃ records, readRecords format count bytes = .ok (records, rest) ∧ Refers records values) ∧
    ∀ count bytes before persisted rest,
      readRecords format (before.length + 1) bytes = .ok (before ++ [persisted], rest) →
        before.length < count → Misplaced before persisted →
          ∃ message, decodeStrings format count bytes = .error message := by
  refine ⟨fun values bytes rest hwrite => ?_, fun count bytes values rest hread => ?_, ?_⟩
  · have hempty : Agree [] [] := ⟨rfl, Nat.zero_le _, fun value id h => by simp at h⟩
    exact deserializeStrings_serializeStrings hformat hempty hwrite rest
  · obtain ⟨records, hrecords, hresolves⟩ := deserializeStrings_eq_ok.mp hread
    exact ⟨records, hrecords, hresolves.refers⟩
  · intro count bytes before persisted rest hfirst hcount hmisplaced
    cases hread : decodeStrings format count bytes with
    | error message => exact ⟨message, rfl⟩
    | ok result =>
        obtain ⟨records, hrecords, hresolves⟩ := deserializeStrings_eq_ok.mp hread
        have htake := readRecords_take hcount hrecords hfirst
        have hrecord : records[before.length]? = some persisted := by
          rw [← List.getElem?_take_of_lt (Nat.lt_succ_self _), ← htake,
            List.getElem?_concat_length]
        have hbefore : records.take before.length = before := by
          have htwice := congrArg (List.take before.length) htake
          rw [List.take_left, List.take_take, Nat.min_eq_left (Nat.le_succ _)] at htwice
          exact htwice.symm
        have hplaced := hresolves.refers.not_misplaced hrecord
        rw [hbefore] at hplaced
        exact absurd hmisplaced hplaced

/-! ## The format of the payloads -/

/-- Numbers in groups of seven bits, a tag for the optional text, and the text behind its length. -/
def payloadFormat : RecordFormat where
  write persisted :=
    Varint.write persisted.id ++
      match persisted.value with
      | none => [0]
      | some value => 1 :: Varint.writeText value
  read bytes :=
    match Varint.read bytes with
    | none => .error "unexpected end of the payload"
    | some (id, 0 :: rest) => .ok (⟨id, none⟩, rest)
    | some (id, 1 :: rest) =>
        match Varint.readText rest with
        | some (value, rest) => .ok (⟨id, some value⟩, rest)
        | none => .error "malformed text"
    | some _ => .error "malformed option"

theorem readsBack_payloadFormat : payloadFormat.ReadsBack := by
  rintro ⟨id, value⟩ rest -
  cases value with
  | none => simp [payloadFormat, Varint.read_write]
  | some value => simp [payloadFormat, Varint.read_write, Varint.readText_writeText]

theorem persisted_strings_round_trip_repeated :
    ∃ bytes, encodeStrings payloadFormat ["P01", "Activity Resumed", "P01"] = .ok bytes ∧
      decodeStrings payloadFormat 3 bytes = .ok (["P01", "Activity Resumed", "P01"], []) := by
  refine ⟨_, rfl, ?_⟩
  have hread := (persisted_strings_round_trip readsBack_payloadFormat).1
    ["P01", "Activity Resumed", "P01"] _ [] rfl
  rwa [List.append_nil] at hread

end Chronicle.Persistence
