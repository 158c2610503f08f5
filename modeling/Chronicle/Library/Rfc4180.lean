import Chronicle.Library.Peekable
import Mathlib.Data.List.Nodup

/-!
# Quoted records of separated fields

Texts of records: fields are parted by commas and records by line feeds, before which a carriage
return may stand. A field may stand in quotes, where a doubled quote is one quote. A reader takes
such a text apart; it refuses exactly the texts that are cut at no field.
-/

namespace Chronicle.Library.Rfc4180

open Chronicle.Library.Peekable

/-- The symbols that have a meaning of their own. -/
structure Symbols (α : Type) where
  comma : α
  quote : α
  lineFeed : α
  carriageReturn : α
  distinct : [comma, quote, lineFeed, carriageReturn].Nodup

variable {α : Type}

namespace Symbols

theorem comma_ne_quote (s : Symbols α) : s.comma ≠ s.quote := by
  have h := s.distinct
  simp only [List.nodup_cons, List.mem_cons, not_or] at h
  exact h.1.1

theorem comma_ne_lineFeed (s : Symbols α) : s.comma ≠ s.lineFeed := by
  have h := s.distinct
  simp only [List.nodup_cons, List.mem_cons, not_or] at h
  exact h.1.2.1

theorem quote_ne_lineFeed (s : Symbols α) : s.quote ≠ s.lineFeed := by
  have h := s.distinct
  simp only [List.nodup_cons, List.mem_cons, not_or] at h
  exact h.2.1.1

theorem carriageReturn_ne_comma (s : Symbols α) : s.carriageReturn ≠ s.comma := by
  have h := s.distinct
  simp only [List.nodup_cons, List.mem_cons, not_or] at h
  exact fun heq => h.1.2.2.1 heq.symm

theorem carriageReturn_ne_quote (s : Symbols α) : s.carriageReturn ≠ s.quote := by
  have h := s.distinct
  simp only [List.nodup_cons, List.mem_cons, not_or] at h
  exact fun heq => h.2.1.2.1 heq.symm

theorem carriageReturn_ne_lineFeed (s : Symbols α) : s.carriageReturn ≠ s.lineFeed := by
  have h := s.distinct
  simp only [List.nodup_cons, List.mem_cons, not_or] at h
  exact fun heq => h.2.2.1.1 heq.symm

variable [DecidableEq α]

/-- The field holds a symbol with a meaning of its own. -/
def needsQuotes (s : Symbols α) (field : List α) : Bool :=
  field.any fun x => x = s.comma || x = s.quote || x = s.lineFeed || x = s.carriageReturn

/-- The field with every quote doubled. -/
def escaped (s : Symbols α) (field : List α) : List α :=
  field.flatMap fun x => if x = s.quote then [s.quote, s.quote] else [x]

/-- The field in quotes. -/
def inQuotes (s : Symbols α) (field : List α) : List α :=
  s.quote :: s.escaped field ++ [s.quote]

end Symbols

variable [DecidableEq α] {s : Symbols α}

/-! ## Texts of records -/

/-- A field with the choice to put it in quotes. -/
structure Written (s : Symbols α) where
  value : List α
  quoted : Bool
  plain : quoted = false → s.needsQuotes value = false

/-- The text of a field. -/
def Written.text (field : Written s) : List α :=
  if field.quoted then s.inQuotes field.value else field.value

/-- The end of a record. -/
inductive Ending where
  | lf
  | crlf
deriving DecidableEq, Repr

/-- The text of an end. -/
def Ending.text (s : Symbols α) : Ending → List α
  | .lf => [s.lineFeed]
  | .crlf => [s.carriageReturn, s.lineFeed]

/-- The text of the fields of one record. -/
def fieldsText : List (Written s) → List α
  | [] => []
  | [field] => field.text
  | field :: next :: t => field.text ++ s.comma :: fieldsText (next :: t)

/-- A record and its end. -/
structure Line (s : Symbols α) where
  fields : List (Written s)
  ending : Ending
  nonempty : fields ≠ []

/-- The values of a record. -/
def Line.values (line : Line s) : List (List α) := line.fields.map Written.value

/-- The text of a record with its end. -/
def Line.text (line : Line s) : List α := fieldsText line.fields ++ line.ending.text s

/-- The records, each with the number of the physical line on which it begins; the first begins on
line `start`. -/
def numbered (start : Nat) (lines : List (Line s)) : List (Nat × List (List α)) :=
  lines.mapIdx fun k line =>
    (start + ((lines.take k).flatMap Line.text).count s.lineFeed, line.values)

/-! ## Reading -/

/-- Where the reader stands. -/
inductive Mode where
  | outside
  | inside
  | closed
deriving DecidableEq, Repr

/-- The records that are finished with their first lines, and what is read of the next one. -/
structure Reader (α : Type) where
  mode : Mode := .outside
  finished : List (Nat × List (List α)) := []
  fields : List (List α) := []
  field : List α := []
  line : Nat := 1
  startLine : Nat := 1

namespace Reader

def push (r : Reader α) (x : α) : Reader α := { r with field := r.field ++ [x] }

def endField (r : Reader α) : Reader α :=
  { r with mode := .outside, fields := r.fields ++ [r.field], field := [] }

def endRecord (r : Reader α) : Reader α where
  finished := r.finished ++ [(r.startLine, r.fields ++ [r.field])]
  line := r.line + 1
  startLine := r.line + 1

/-- One symbol. A reading fails with the first line of the record that it stands in. -/
def pass (s : Symbols α) : Pass α (Reader α) Nat := fun r x peeked =>
  if r.mode = .inside then
    if x = s.quote then
      if peeked = some s.quote then .ok (r.push x, true)
      else .ok ({ r with mode := .closed }, false)
    else if x = s.lineFeed then .ok ({ r.push x with line := r.line + 1 }, false)
    else .ok (r.push x, false)
  else if x = s.comma then .ok (r.endField, false)
  else if x = s.lineFeed then .ok (r.endRecord, false)
  else if x = s.carriageReturn ∧ peeked = some s.lineFeed then .ok (r.endRecord, true)
  else if r.mode = .closed then .error r.startLine
  else if x = s.quote then
    if r.field = [] then .ok ({ r with mode := .inside }, false)
    else .error r.startLine
  else .ok (r.push x, false)

/-- What the end of the text makes of the reading; it ends a record that has begun. -/
def finish (r : Reader α) : Except Nat (List (Nat × List (List α))) :=
  if r.mode = .inside then .error r.startLine
  else if r.mode = .closed ∨ r.field ≠ [] ∨ r.fields ≠ [] then
    .ok (r.finished ++ [(r.startLine, r.fields ++ [r.field])])
  else .ok r.finished

end Reader

/-- The records of a text, each with its first line. -/
def readRecords (s : Symbols α) (text : List α) : Except Nat (List (Nat × List (List α))) :=
  (loop (Reader.pass s) false {} text).bind Reader.finish

/-! ## The passes over a field -/

section Passes

variable {r : Reader α} {x : α} {field t : List α}

theorem needsQuotes_eq_false : s.needsQuotes field = false ↔
    ∀ x ∈ field, x ≠ s.comma ∧ x ≠ s.quote ∧ x ≠ s.lineFeed ∧ x ≠ s.carriageReturn := by
  simp only [Symbols.needsQuotes, List.any_eq_false, Bool.or_eq_true, decide_eq_true_eq, not_or,
    and_assoc]

theorem escaped_cons (x : α) (field : List α) :
    s.escaped (x :: field) = (if x = s.quote then [s.quote, s.quote] else [x]) ++ s.escaped field :=
  rfl

theorem loop_comma (h : r.mode ≠ .inside) :
    loop (Reader.pass s) false r (s.comma :: t) =
      loop (Reader.pass s) false r.endField t :=
  loop_one (by simp [Reader.pass, h])

theorem loop_ending (h : r.mode ≠ .inside) (ending : Ending) :
    loop (Reader.pass s) false r (ending.text s ++ t) =
      loop (Reader.pass s) false r.endRecord t := by
  cases ending with
  | lf => exact loop_one (by simp [Reader.pass, h, s.comma_ne_lineFeed.symm])
  | crlf =>
      exact loop_two (by
        simp [Reader.pass, h, s.carriageReturn_ne_comma, s.carriageReturn_ne_lineFeed])

theorem loop_open (h : r.mode = .outside) (hempty : r.field = []) :
    loop (Reader.pass s) false r (s.quote :: t) =
      loop (Reader.pass s) false { r with mode := .inside } t :=
  loop_one (by
    simp [Reader.pass, h, hempty, s.comma_ne_quote.symm, s.quote_ne_lineFeed,
      s.carriageReturn_ne_quote.symm])

/-- A symbol that has no meaning outside quotes. A carriage return has one before a line feed. -/
theorem loop_push (h : r.mode = .outside) (hcomma : x ≠ s.comma) (hquote : x ≠ s.quote)
    (hfeed : x ≠ s.lineFeed) (hreturn : x = s.carriageReturn → t.head? ≠ some s.lineFeed) :
    loop (Reader.pass s) false r (x :: t) =
      loop (Reader.pass s) false (r.push x) t := by
  refine loop_one ?_
  have hpair : ¬ (x = s.carriageReturn ∧ t.head? = some s.lineFeed) := fun hboth =>
    hreturn hboth.1 hboth.2
  simp only [Reader.pass, h, hcomma, hquote, hfeed, hpair, if_false, reduceCtorEq]

theorem loop_plain (h : r.mode = .outside) (hplain : s.needsQuotes field = false) :
    loop (Reader.pass s) false r (field ++ t) =
      loop (Reader.pass s) false { r with field := r.field ++ field } t := by
  induction field generalizing r with
  | nil => simp
  | cons x field ih =>
      rw [needsQuotes_eq_false] at hplain
      obtain ⟨hcomma, hquote, hfeed, hreturn⟩ := hplain x List.mem_cons_self
      have htail : s.needsQuotes field = false := needsQuotes_eq_false.mpr fun y hy =>
        hplain y (List.mem_cons_of_mem x hy)
      rw [List.cons_append, loop_push h hcomma hquote hfeed fun heq => absurd heq hreturn,
        ih (r := r.push x) h htail]
      simp [Reader.push]

/-- Inside quotes the doubled quotes of a field become single again. -/
theorem loop_escaped (field : List α) (h : r.mode = .inside) :
    loop (Reader.pass s) false r (s.escaped field ++ t) =
      loop (Reader.pass s) false { r with
        field := r.field ++ field
        line := r.line + field.count s.lineFeed } t := by
  induction field generalizing r with
  | nil => simp [Symbols.escaped]
  | cons x field ih =>
      rw [escaped_cons, List.append_assoc]
      by_cases hquote : x = s.quote
      · have hpass : Reader.pass s r s.quote (some s.quote) = .ok (r.push s.quote, true) := by
          simp [Reader.pass, h]
        rw [if_pos hquote, List.cons_append, List.cons_append, List.nil_append, loop_two hpass,
          ih (r := r.push s.quote) h]
        simp [Reader.push, hquote, s.quote_ne_lineFeed]
      · rw [if_neg hquote, List.cons_append, List.nil_append]
        by_cases hfeed : x = s.lineFeed
        · have hpass : Reader.pass s r x (s.escaped field ++ t).head? =
              .ok ({ r.push x with line := r.line + 1 }, false) := by
            simp [Reader.pass, h, hfeed, s.quote_ne_lineFeed.symm]
          rw [loop_one hpass, ih (r := { r.push x with line := r.line + 1 }) h]
          simp [Reader.push, hfeed, Nat.add_comm, Nat.add_left_comm]
        · have hpass : Reader.pass s r x (s.escaped field ++ t).head? =
              .ok (r.push x, false) := by
            simp [Reader.pass, h, hfeed, hquote]
          rw [loop_one hpass, ih (r := r.push x) h]
          simp [Reader.push, hfeed]

theorem loop_inQuotes (h : r.mode = .outside) (hempty : r.field = [])
    (hnext : t.head? ≠ some s.quote) :
    loop (Reader.pass s) false r (s.inQuotes field ++ t) =
      loop (Reader.pass s) false { r with
        mode := .closed
        field := field
        line := r.line + field.count s.lineFeed } t := by
  rw [Symbols.inQuotes, List.cons_append, List.cons_append, loop_open h hempty, List.append_assoc,
    loop_escaped field rfl]
  refine loop_one ?_
  simp [Reader.pass, hnext, hempty]

end Passes

/-! ## Round trip -/

section RoundTrip

variable {r : Reader α} {t : List α}

theorem count_escaped (field : List α) :
    (s.escaped field).count s.lineFeed = field.count s.lineFeed := by
  induction field with
  | nil => rfl
  | cons x field ih =>
      rw [escaped_cons, List.count_append, ih, List.count_cons]
      by_cases hquote : x = s.quote
      · simp [hquote, s.quote_ne_lineFeed]
      · by_cases hfeed : x = s.lineFeed
        · simp [hfeed, s.quote_ne_lineFeed.symm, Nat.add_comm]
        · simp [hquote, hfeed]

theorem Written.count_text (field : Written s) :
    field.text.count s.lineFeed = field.value.count s.lineFeed := by
  unfold Written.text
  split
  · simp [Symbols.inQuotes, count_escaped, s.quote_ne_lineFeed]
  · rfl

/-- The reader after a field. -/
def Reader.wrote (r : Reader α) (field : Written s) : Reader α :=
  { r with
    mode := if field.quoted then .closed else .outside
    field := field.value
    line := r.line + field.value.count s.lineFeed }

theorem Reader.wrote_mode (field : Written s) : (r.wrote field).mode ≠ .inside := by
  unfold Reader.wrote
  split <;> simp

theorem loop_written (field : Written s) (h : r.mode = .outside) (hempty : r.field = [])
    (hnext : t.head? ≠ some s.quote) :
    loop (Reader.pass s) false r (field.text ++ t) =
      loop (Reader.pass s) false (r.wrote field) t := by
  unfold Written.text Reader.wrote
  split
  · exact loop_inQuotes h hempty hnext
  · next hquoted =>
      have hplain := field.plain (by simpa using hquoted)
      have hcount : field.value.count s.lineFeed = 0 :=
        List.count_eq_zero.mpr fun hmem => (needsQuotes_eq_false.mp hplain _ hmem).2.2.1 rfl
      rw [loop_plain h hplain, hcount, hempty, ← h]
      rfl

/-- The reader after the fields of a record: the last one is not ended. -/
def Reader.wroteFields (r : Reader α) : List (Written s) → Reader α
  | [] => r
  | [field] => r.wrote field
  | field :: next :: t => (r.wrote field).endField.wroteFields (next :: t)

theorem loop_fieldsText (fields : List (Written s)) (h : r.mode = .outside)
    (hempty : r.field = []) (hnext : t.head? ≠ some s.quote) :
    loop (Reader.pass s) false r (fieldsText fields ++ t) =
      loop (Reader.pass s) false (r.wroteFields fields) t := by
  induction fields generalizing r with
  | nil => rfl
  | cons field fields ih =>
      cases fields with
      | nil => exact loop_written field h hempty hnext
      | cons next fields =>
          rw [fieldsText, List.append_assoc, List.cons_append,
            loop_written field h hempty (by simp [s.comma_ne_quote]),
            loop_comma (Reader.wrote_mode field), ih rfl rfl]
          rfl

theorem Reader.wroteFields_spec {fields : List (Written s)} (hfields : fields ≠ []) :
    (r.wroteFields fields).mode ≠ .inside ∧
    (r.wroteFields fields).finished = r.finished ∧
    (r.wroteFields fields).fields ++ [(r.wroteFields fields).field] =
      r.fields ++ fields.map Written.value ∧
    (r.wroteFields fields).line = r.line + (fieldsText fields).count s.lineFeed ∧
    (r.wroteFields fields).startLine = r.startLine := by
  induction fields generalizing r with
  | nil => exact absurd rfl hfields
  | cons field fields ih =>
      cases fields with
      | nil =>
          refine ⟨Reader.wrote_mode field, rfl, rfl, ?_, rfl⟩
          rw [fieldsText, Written.count_text]
          rfl
      | cons next fields =>
          obtain ⟨hmode, hfinished, hvalues, hline, hstart⟩ :=
            ih (r := (r.wrote field).endField) (List.cons_ne_nil next fields)
          refine ⟨hmode, hfinished, ?_, ?_, hstart⟩
          · rw [Reader.wroteFields, hvalues]
            simp [Reader.endField, Reader.wrote]
          · rw [Reader.wroteFields, hline, fieldsText, List.count_append, List.count_cons,
              Written.count_text]
            simp [Reader.endField, Reader.wrote, s.comma_ne_lineFeed, Nat.add_assoc]

/-- The reader at the beginning of a line. -/
def Reader.atLine (finished : List (Nat × List (List α))) (line : Nat) : Reader α where
  finished := finished
  line := line
  startLine := line

theorem Ending.count_text (ending : Ending) : (ending.text s).count s.lineFeed = 1 := by
  cases ending with
  | lf => simp [Ending.text]
  | crlf => simp [Ending.text, s.carriageReturn_ne_lineFeed]

omit [DecidableEq α] in
theorem Ending.head?_text (ending : Ending) (t : List α) :
    (ending.text s ++ t).head? ≠ some s.quote := by
  cases ending with
  | lf => simp [Ending.text, s.quote_ne_lineFeed.symm]
  | crlf => simp [Ending.text, s.carriageReturn_ne_quote]

theorem loop_line (line : Line s) (finished : List (Nat × List (List α))) (start : Nat) :
    loop (Reader.pass s) false (Reader.atLine finished start) (line.text ++ t) =
      loop (Reader.pass s) false
        (Reader.atLine (finished ++ [(start, line.values)])
          (start + line.text.count s.lineFeed)) t := by
  obtain ⟨hmode, hfinished, hvalues, hline, hstart⟩ :=
    Reader.wroteFields_spec (r := Reader.atLine finished start) line.nonempty
  rw [Line.text, List.append_assoc,
    loop_fieldsText line.fields rfl rfl (line.ending.head?_text t), loop_ending hmode]
  congr 1
  rw [Reader.endRecord, hfinished, hvalues, hline, hstart, List.count_append, Ending.count_text]
  rfl

theorem numbered_cons (line : Line s) (lines : List (Line s)) (start : Nat) :
    numbered start (line :: lines) =
      (start, line.values) :: numbered (start + line.text.count s.lineFeed) lines := by
  unfold numbered
  rw [List.mapIdx_cons]
  simp [Nat.add_assoc]

/-- A text of lines, and what follows it. -/
theorem loop_lines (lines : List (Line s)) (finished : List (Nat × List (List α))) (start : Nat) :
    loop (Reader.pass s) false (Reader.atLine finished start) (lines.flatMap Line.text ++ t) =
      loop (Reader.pass s) false
        (Reader.atLine (finished ++ numbered start lines)
          (start + (lines.flatMap Line.text).count s.lineFeed)) t := by
  induction lines generalizing finished start with
  | nil => simp [numbered]
  | cons line lines ih =>
      rw [List.flatMap_cons, List.append_assoc, loop_line, ih, numbered_cons, List.count_append]
      simp [Nat.add_assoc]

/-- Records that all have an end are read back. -/
theorem readRecords_lines (lines : List (Line s)) :
    readRecords s (lines.flatMap Line.text) = .ok (numbered 1 lines) := by
  have hrun := loop_lines (t := []) lines [] 1
  rw [List.append_nil, loop_nil] at hrun
  change (loop (Reader.pass s) false (Reader.atLine [] 1) _).bind Reader.finish = _
  rw [hrun]
  rfl

end RoundTrip

/-! ## The grammar of a record -/

/-- A field as the grammar has it: symbols without a meaning of their own, or any symbols in quotes,
where a quote is doubled. Blanks are symbols like others. -/
inductive FieldText (s : Symbols α) : List α → List α → Prop where
  | plain {value : List α} (hplain : s.needsQuotes value = false) : FieldText s value value
  | inQuotes (value : List α) : FieldText s (s.inQuotes value) value

/-- A record as the grammar has it: one field or more, parted by commas. -/
inductive RecordText (s : Symbols α) : List α → List (List α) → Prop where
  | last {text value : List α} (hfield : FieldText s text value) : RecordText s text [value]
  | cons {text value rest : List α} {values : List (List α)} (hfield : FieldText s text value)
      (hrest : RecordText s rest values) :
      RecordText s (text ++ s.comma :: rest) (value :: values)

section Grammar

variable {text value : List α} {values : List (List α)}

theorem Written.fieldText (field : Written s) : FieldText s field.text field.value := by
  unfold Written.text
  split
  · exact .inQuotes field.value
  · rename_i hquoted
    exact .plain (field.plain (by simpa using hquoted))

theorem FieldText.exists_written (h : FieldText s text value) :
    ∃ field : Written s, field.text = text ∧ field.value = value := by
  cases h with
  | plain hplain => exact ⟨⟨text, false, fun _ => hplain⟩, rfl, rfl⟩
  | inQuotes => exact ⟨⟨value, true, nofun⟩, rfl, rfl⟩

/-- The texts of fields are the records of the grammar. -/
theorem recordText_fieldsText {fields : List (Written s)} (hfields : fields ≠ []) :
    RecordText s (fieldsText fields) (fields.map Written.value) := by
  induction fields with
  | nil => exact absurd rfl hfields
  | cons field rest ih =>
      cases rest with
      | nil => exact .last field.fieldText
      | cons next rest => exact .cons field.fieldText (ih (List.cons_ne_nil next rest))

theorem RecordText.exists_line (h : RecordText s text values) (ending : Ending) :
    ∃ line : Line s, line.ending = ending ∧ fieldsText line.fields = text ∧
      line.values = values := by
  induction h with
  | last hfield =>
      obtain ⟨field, htext, hvalue⟩ := hfield.exists_written
      exact ⟨⟨[field], ending, List.cons_ne_nil _ _⟩, rfl, htext, congrArg (fun v => [v]) hvalue⟩
  | cons hfield _ ih =>
      obtain ⟨field, htext, hvalue⟩ := hfield.exists_written
      obtain ⟨line, _, hrest, hvalues⟩ := ih
      obtain ⟨next, rest, hline⟩ := List.exists_cons_of_ne_nil line.nonempty
      refine ⟨⟨field :: line.fields, ending, List.cons_ne_nil _ _⟩, rfl, ?_, ?_⟩
      · rw [← htext, ← hrest, hline]
        rfl
      · rw [← hvalue, ← hvalues]
        rfl

/-- A record that has its end is read as the grammar reads it. -/
theorem RecordText.readRecords (h : RecordText s text values) (ending : Ending) :
    readRecords s (text ++ ending.text s) = .ok [(1, values)] := by
  obtain ⟨line, hending, htext, hvalues⟩ := h.exists_line ending
  have hline : [line].flatMap Line.text = text ++ ending.text s := by
    rw [List.flatMap_singleton, Line.text, htext, hending]
  rw [← hline, readRecords_lines, numbered, List.mapIdx_singleton, hvalues]
  rfl

/-- The grammar reads a text in one way at most: the reader finds whatever it reads. -/
theorem RecordText.unique {others : List (List α)} (h : RecordText s text values)
    (hother : RecordText s text others) : values = others := by
  have hread := (h.readRecords .lf).symm.trans (hother.readRecords .lf)
  simpa using hread

end Grammar

/-! ## Texts that are refused -/

/-- A field as it stands in a text. Outside quotes a carriage return is data too. -/
inductive RawField (s : Symbols α) : List α → Prop where
  | plain {field : List α} (hplain : ∀ x ∈ field, x ≠ s.comma ∧ x ≠ s.quote ∧ x ≠ s.lineFeed) :
      RawField s field
  | inQuotes (field : List α) : RawField s (s.inQuotes field)

/-- What ends a field. -/
inductive Separator (s : Symbols α) : List α → Prop where
  | comma : Separator s [s.comma]
  | ending (ending : Ending) : Separator s (ending.text s)

/-- A text of fields that all are ended. -/
inductive Fields (s : Symbols α) : List α → Prop where
  | nil : Fields s []
  | snoc {text field separator : List α} (htext : Fields s text) (hfield : RawField s field)
      (hseparator : Separator s separator) : Fields s (text ++ field ++ separator)

section Refused

variable {r : Reader α} {field t text : List α}

/-- The reader stands at the beginning of a field. -/
def Reader.Fresh (r : Reader α) : Prop := r.mode = .outside ∧ r.field = []

/-- What is read of the field in which the reader stands. -/
def Reader.Partial (s : Symbols α) (r : Reader α) (current : List α) : Prop :=
  match r.mode with
  | .outside => r.field = current ∧
      ∀ x ∈ current, x ≠ s.comma ∧ x ≠ s.quote ∧ x ≠ s.lineFeed
  | .inside => current = s.quote :: s.escaped r.field
  | .closed => current = s.inQuotes r.field

theorem Reader.Partial.raw {current : List α} (h : r.Partial s current)
    (hmode : r.mode ≠ .inside) : RawField s current := by
  unfold Reader.Partial at h
  split at h
  · exact .plain h.2
  · next hinside => exact absurd hinside hmode
  · exact h ▸ .inQuotes r.field

/-- The text that is read is a text of fields and the beginning of one; a closing quote is not
doubled. -/
def Reader.Reads (s : Symbols α) (done : List α) (r : Reader α) (t : List α) : Prop :=
  (∃ text current, done = text ++ current ∧ Fields s text ∧ r.Partial s current) ∧
    (r.mode = .closed → t.head? ≠ some s.quote)

theorem Reader.Fresh.reads {done : List α} (h : r.Fresh) (hdone : Fields s done) :
    r.Reads s done t := by
  obtain ⟨hmode, hempty⟩ := h
  refine ⟨⟨done, [], by simp, hdone, ?_⟩, by simp [hmode]⟩
  simp [Reader.Partial, hmode, hempty]

/-- A separator after a field that is not inside quotes. -/
theorem Reader.Reads.separator {done separator : List α} {next : Reader α}
    (h : r.Reads s done field) (hmode : r.mode ≠ .inside)
    (hseparator : Separator s separator) (hnext : next.Fresh) :
    next.Reads s (done ++ separator) t := by
  obtain ⟨⟨text, current, rfl, htext, hcurrent⟩, -⟩ := h
  exact hnext.reads (.snoc htext (hcurrent.raw hmode) hseparator)

end Refused

end Chronicle.Library.Rfc4180
