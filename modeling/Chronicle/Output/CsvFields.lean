import Chronicle.Library.Rfc4180
import Mathlib.Data.List.TakeWhile

/-!
# Fields of delivered tables

How the kernel writes a field, which fields a spreadsheet takes for numbers, and the text of a
table.
-/

namespace Chronicle.Output

open Chronicle.Library.Rfc4180

/-- The byte of an ASCII character. -/
def ascii (c : Char) : UInt8 := c.toUInt8

/-- `needs_csv_quoting` -/
def needsCsvQuoting (bytes : List UInt8) : Bool :=
  bytes.any fun byte => byte = ascii ',' || byte = ascii '"' || byte = ascii '\n' ||
    byte = ascii '\r'

/-- `write_csv_field` -/
def writeCsvField (output field : List UInt8) : List UInt8 :=
  if !needsCsvQuoting field then output ++ field
  else
    (field.foldl (fun output byte =>
      if byte = ascii '"' then output ++ [ascii '"', ascii '"'] else output ++ [byte])
      (output ++ [ascii '"'])) ++ [ascii '"']

/-- The bytes that have a meaning of their own. -/
def csvBytes : Symbols UInt8 where
  comma := ascii ','
  quote := ascii '"'
  lineFeed := ascii '\n'
  carriageReturn := ascii '\r'
  distinct := by decide

theorem writeCsvField_eq (output field : List UInt8) :
    writeCsvField output field = output ++
      if csvBytes.needsQuotes field then csvBytes.inQuotes field else field := by
  have hloop : ∀ output : List UInt8,
      field.foldl (fun output byte =>
        if byte = ascii '"' then output ++ [ascii '"', ascii '"'] else output ++ [byte]) output =
      output ++ csvBytes.escaped field := by
    induction field with
    | nil => simp [Symbols.escaped]
    | cons byte field ih =>
        intro output
        rw [List.foldl_cons, ih, escaped_cons]
        by_cases hquote : byte = ascii '"'
        · simp [hquote, csvBytes]
        · simp [hquote, csvBytes]
  have hneeds : needsCsvQuoting field = csvBytes.needsQuotes field := rfl
  unfold writeCsvField
  rw [hneeds]
  cases csvBytes.needsQuotes field with
  | false => rfl
  | true =>
      rw [hloop]
      simp [Symbols.inQuotes, csvBytes]

/-- A record of at least one field and its end. -/
structure TableRecord where
  fields : List (List UInt8)
  ending : Ending
  nonempty : fields ≠ []

/-- The fields of a record as the kernel writes them. -/
def writeFields (output : List UInt8) : List (List UInt8) → List UInt8
  | [] => output
  | [field] => writeCsvField output field
  | field :: next :: rest => writeFields (writeCsvField output field ++ [ascii ',']) (next :: rest)

/-- The table with its records written one after the other. -/
def writeTable (table : List TableRecord) : List UInt8 :=
  table.foldl (fun output record => writeFields output record.fields ++
    record.ending.text csvBytes) []

/-- A field that is put in quotes when it has to be. -/
def written (field : List UInt8) : Written csvBytes where
  value := field
  quoted := csvBytes.needsQuotes field
  plain := id

theorem text_written (field : List UInt8) : (written field).text =
    if csvBytes.needsQuotes field then csvBytes.inQuotes field else field := rfl

/-- The record as a line of the text. -/
def TableRecord.line (record : TableRecord) : Line csvBytes where
  fields := record.fields.map written
  ending := record.ending
  nonempty := by simpa using record.nonempty

theorem writeCsvField_written (output field : List UInt8) :
    writeCsvField output field = output ++ (written field).text :=
  writeCsvField_eq output field

theorem writeFields_eq (output : List UInt8) (fields : List (List UInt8)) :
    writeFields output fields = output ++ fieldsText (fields.map written) := by
  induction fields generalizing output with
  | nil => simp [writeFields, fieldsText]
  | cons field fields ih =>
      cases fields with
      | nil => exact writeCsvField_written output field
      | cons next fields =>
          rw [writeFields, ih, writeCsvField_written, List.append_assoc, List.append_assoc]
          rfl

theorem writeTable_eq (table : List TableRecord) :
    writeTable table = table.flatMap fun record => record.line.text := by
  have hloop : ∀ output : List UInt8,
      table.foldl (fun output record => writeFields output record.fields ++
        record.ending.text csvBytes) output =
      output ++ table.flatMap fun record => record.line.text := by
    induction table with
    | nil => simp
    | cons record table ih =>
        intro output
        rw [List.foldl_cons, ih, writeFields_eq]
        simp [Line.text, TableRecord.line]
  exact hloop []

/-- The fields of the records of a text. -/
def parseTable (text : List UInt8) : Option (List (List (List UInt8))) :=
  (readRecords csvBytes text).toOption.map (List.map Prod.snd)

theorem parseTable_writeTable (table : List TableRecord) :
    parseTable (writeTable table) = some (table.map TableRecord.fields) := by
  have hlines : writeTable table = (table.map TableRecord.line).flatMap Line.text := by
    rw [writeTable_eq, List.flatMap_map]
  rw [parseTable, hlines, readRecords_lines]
  simp only [Except.toOption, Option.map_some, Option.some.injEq]
  refine List.ext_getElem (by simp [numbered]) fun k hk hk' => ?_
  simp [numbered, Line.values, TableRecord.line, written, Function.comp_def]

/-- The line of a record is a record of the grammar. -/
theorem recordText_writeFields {fields : List (List UInt8)} (hfields : fields ≠ []) :
    RecordText csvBytes (writeFields [] fields) fields := by
  have hvalues : (fields.map written).map Written.value = fields := by
    rw [List.map_map]
    exact List.map_id fields
  have hwritten : fields.map written ≠ [] := List.map_eq_nil_iff.not.mpr hfields
  have hrecord := recordText_fieldsText hwritten
  rw [hvalues] at hrecord
  rw [writeFields_eq, List.nil_append]
  exact hrecord

/-- The line of a record, whatever its fields hold, is read as these fields and in no other way: by
the grammar, and by the reader once the line has its end. -/
theorem writeFields_read_back (first : List UInt8) (rest : List (List UInt8)) :
    (∀ fields, RecordText csvBytes (writeFields [] (first :: rest)) fields ↔
      fields = first :: rest) ∧
    ∀ ending : Ending,
      parseTable (writeFields [] (first :: rest) ++ ending.text csvBytes) =
        some [first :: rest] := by
  have hline : RecordText csvBytes (writeFields [] (first :: rest)) (first :: rest) :=
    recordText_writeFields (List.cons_ne_nil first rest)
  refine ⟨fun fields => ⟨fun hfields => hfields.unique hline, ?_⟩, fun ending => ?_⟩
  · rintro rfl
    exact hline
  · rw [parseTable, hline.readRecords ending]
    rfl

/-! ## Numbers -/

/-- An ASCII digit. -/
def isAsciiDigit (byte : UInt8) : Bool := ascii '0' ≤ byte && byte ≤ ascii '9'

/-- The byte is a sign. -/
def isSign (byte : UInt8) : Bool := byte = ascii '+' || byte = ascii '-'

/-- What follows an optional sign. -/
def skipSign : List UInt8 → List UInt8
  | byte :: rest => if isSign byte then rest else byte :: rest
  | [] => []

/-- The digits after a decimal point, and what follows them. -/
def fraction : List UInt8 → List UInt8 × List UInt8
  | byte :: rest =>
      if byte = ascii '.' then (rest.takeWhile isAsciiDigit, rest.dropWhile isAsciiDigit)
      else ([], byte :: rest)
  | [] => ([], [])

/-- Nothing follows the mantissa but an exponent. -/
def endsNumber : List UInt8 → Bool
  | [] => true
  | byte :: rest =>
      if byte = ascii 'e' || byte = ascii 'E' then
        let exponent := skipSign rest
        if exponent.takeWhile isAsciiDigit = [] then false
        else exponent.dropWhile isAsciiDigit = []
      else false

/-- `is_decimal_number`; the index is carried as what is left of the cell. -/
def isDecimalNumber (cell : List UInt8) : Bool :=
  let unsigned := skipSign cell
  let integer := unsigned.takeWhile isAsciiDigit
  let (decimals, rest) := fraction (unsigned.dropWhile isAsciiDigit)
  if integer.length + decimals.length = 0 then false else endsNumber rest

/-- `SIGNED_INFINITY_TAIL` -/
def signedInfinityTail : List UInt8 := "Infinity".toList.map ascii

/-- `is_numeric_cell` -/
def isNumericCell (cell : List UInt8) : Bool :=
  isDecimalNumber cell || (cell ≠ [] && cell.drop 1 = signedInfinityTail)

/-- `can_continue_a_number` -/
def canContinueANumber (byte : UInt8) : Bool :=
  isAsciiDigit byte || byte = ascii '.' || byte = ascii 'e' || byte = ascii 'E' ||
    byte = ascii '+' || byte = ascii '-'

/-- Digits, of which some come before or after a point. -/
inductive Mantissa : List UInt8 → Prop where
  | integer {digits : List UInt8} (hdigits : ∀ d ∈ digits, isAsciiDigit d)
      (hnonempty : digits ≠ []) : Mantissa digits
  | decimal {integer decimals : List UInt8} (hinteger : ∀ d ∈ integer, isAsciiDigit d)
      (hdecimals : ∀ d ∈ decimals, isAsciiDigit d) (hnonempty : integer ≠ [] ∨ decimals ≠ []) :
      Mantissa (integer ++ ascii '.' :: decimals)

/-- Nothing, or an exponent with an optional sign. -/
inductive Exponent : List UInt8 → Prop where
  | none : Exponent []
  | some {mark : UInt8} {sign digits : List UInt8} (hmark : mark = ascii 'e' ∨ mark = ascii 'E')
      (hsign : sign = [] ∨ sign = [ascii '+'] ∨ sign = [ascii '-'])
      (hdigits : ∀ d ∈ digits, isAsciiDigit d) (hnonempty : digits ≠ []) :
      Exponent (mark :: sign ++ digits)

theorem takeWhile_digits {digits t : List UInt8} (hdigits : ∀ d ∈ digits, isAsciiDigit d)
    (hrest : ∀ byte ∈ t.head?, isAsciiDigit byte = false) :
    (digits ++ t).takeWhile isAsciiDigit = digits ∧
      (digits ++ t).dropWhile isAsciiDigit = t := by
  have hnone : t.takeWhile isAsciiDigit = [] ∧ t.dropWhile isAsciiDigit = t := by
    cases t with
    | nil => exact ⟨rfl, rfl⟩
    | cons byte t =>
        have hbyte := hrest byte rfl
        simp [hbyte]
  rw [List.takeWhile_append_of_pos hdigits, List.dropWhile_append_of_pos hdigits, hnone.1, hnone.2,
    List.append_nil]
  exact ⟨rfl, rfl⟩

theorem forall_mem_takeWhile (bytes : List UInt8) :
    ∀ d ∈ bytes.takeWhile isAsciiDigit, isAsciiDigit d = true := fun _ hd =>
  List.mem_takeWhile_imp hd

theorem Exponent.head {exponent : List UInt8} (h : Exponent exponent) :
    ∀ byte ∈ exponent.head?, byte = ascii 'e' ∨ byte = ascii 'E' := by
  cases h with
  | none => simp
  | some hmark hsign hdigits hnonempty =>
      intro byte hbyte
      cases hbyte
      exact hmark

theorem Exponent.head_digit {exponent : List UInt8} (h : Exponent exponent) :
    ∀ byte ∈ exponent.head?, isAsciiDigit byte = false := by
  intro byte hbyte
  rcases h.head byte hbyte with rfl | rfl <;> decide

theorem skipSign_digits {sign digits : List UInt8}
    (hsign : sign = [] ∨ sign = [ascii '+'] ∨ sign = [ascii '-'])
    (hdigits : ∀ d ∈ digits, isAsciiDigit d) : skipSign (sign ++ digits) = digits := by
  rcases hsign with rfl | rfl | rfl
  · cases digits with
    | nil => rfl
    | cons d digits =>
        have hd : isAsciiDigit d = true := hdigits d List.mem_cons_self
        have hnone : isSign d = false := by
          by_contra hsign
          rw [Bool.not_eq_false, isSign, Bool.or_eq_true, decide_eq_true_eq, decide_eq_true_eq]
            at hsign
          rcases hsign with rfl | rfl <;> exact absurd hd (by decide)
        simp [skipSign, hnone]
  · rfl
  · rfl

theorem exists_skipSign (bytes : List UInt8) :
    ∃ sign, (sign = [] ∨ sign = [ascii '+'] ∨ sign = [ascii '-']) ∧
      bytes = sign ++ skipSign bytes := by
  cases bytes with
  | nil => exact ⟨[], .inl rfl, rfl⟩
  | cons byte rest =>
      by_cases hsign : isSign byte = true
      · refine ⟨[byte], ?_, by simp [skipSign, hsign]⟩
        rw [isSign, Bool.or_eq_true, decide_eq_true_eq, decide_eq_true_eq] at hsign
        rcases hsign with rfl | rfl
        · exact .inr (.inl rfl)
        · exact .inr (.inr rfl)
      · exact ⟨[], .inl rfl, by simp [skipSign, hsign]⟩

theorem endsNumber_iff {rest : List UInt8} : endsNumber rest = true ↔ Exponent rest := by
  constructor
  · intro h
    unfold endsNumber at h
    split at h
    · exact .none
    · next byte rest =>
        dsimp only at h
        split_ifs at h with hmark hdigits
        obtain ⟨sign, hsign, hrest⟩ := exists_skipSign rest
        have hall : (skipSign rest).takeWhile isAsciiDigit = skipSign rest := by
          have hsplit := List.takeWhile_append_dropWhile (p := isAsciiDigit) (l := skipSign rest)
          rwa [of_decide_eq_true h, List.append_nil] at hsplit
        rw [hrest, ← hall]
        refine .some (by simpa using hmark) hsign (forall_mem_takeWhile _) hdigits
  · intro h
    cases h with
    | none => rfl
    | @some mark sign digits hmark hsign hdigits hnonempty =>
        obtain ⟨htake, hdrop⟩ := takeWhile_digits (t := []) hdigits (by simp)
        rw [List.append_nil] at htake hdrop
        have hskip := skipSign_digits hsign hdigits
        rw [List.cons_append, endsNumber, if_pos (by simpa using hmark)]
        simp only [hskip, htake, hdrop, hnonempty, if_false, decide_true]

/-- The scan of a cell with a sign accepts the decimal numbers. -/
theorem isDecimalNumber_iff {sign : UInt8} (hsign : isSign sign = true) {rest : List UInt8} :
    isDecimalNumber (sign :: rest) = true ↔
      ∃ mantissa exponent, Mantissa mantissa ∧ Exponent exponent ∧
        rest = mantissa ++ exponent := by
  have hskip : skipSign (sign :: rest) = rest := by simp [skipSign, hsign]
  have hsplit := List.takeWhile_append_dropWhile (p := isAsciiDigit) (l := rest)
  have hall := forall_mem_takeWhile rest
  unfold isDecimalNumber
  rw [hskip]
  constructor
  · -- the digits before the point, then an optional fraction and exponent, are what was scanned
    intro h
    dsimp only at h
    split_ifs at h with hcount
    have hexponent := endsNumber_iff.mp h
    generalize rest.takeWhile isAsciiDigit = integer at hsplit hall hcount
    generalize rest.dropWhile isAsciiDigit = tail at hsplit hcount h hexponent
    cases tail with
    | nil =>
        refine ⟨integer, [], .integer hall fun hnil => hcount ?_, .none, hsplit.symm⟩
        simp [hnil, fraction]
    | cons byte tail =>
        by_cases hpoint : byte = ascii '.'
        · simp only [fraction, hpoint, if_true] at hcount hexponent
          refine ⟨integer ++ ascii '.' :: tail.takeWhile isAsciiDigit,
            tail.dropWhile isAsciiDigit, .decimal hall (forall_mem_takeWhile tail) ?_,
            hexponent, ?_⟩
          · by_contra hnone
            rw [not_or, not_not, not_not] at hnone
            exact hcount (by simp [hnone.1, hnone.2])
          · rw [← hsplit, hpoint, List.append_assoc, List.cons_append,
              List.takeWhile_append_dropWhile]
        · simp only [fraction, hpoint, if_false] at hcount hexponent
          refine ⟨integer, byte :: tail, .integer hall fun hnil => hcount ?_, hexponent,
            hsplit.symm⟩
          simp [hnil]
  · rintro ⟨mantissa, exponent, hmantissa, hexponent, rfl⟩
    cases hmantissa with
    | integer hdigits hnonempty =>
        obtain ⟨htake, hdrop⟩ := takeWhile_digits hdigits hexponent.head_digit
        have hfraction : fraction exponent = ([], exponent) := by
          cases exponent with
          | nil => rfl
          | cons byte exponent =>
              -- an exponent begins with a letter, so no fraction is scanned
              have hpoint : byte ≠ ascii '.' := by
                rcases hexponent.head byte rfl with rfl | rfl <;> decide
              simp [fraction, hpoint]
        simp only [htake, hdrop, hfraction]
        rw [if_neg (by simpa using hnonempty)]
        exact endsNumber_iff.mpr hexponent
    | @decimal integer decimals hinteger hdecimals hnonempty =>
        have hpoint : ∀ byte ∈ (ascii '.' :: (decimals ++ exponent)).head?,
            isAsciiDigit byte = false := by
          intro byte hbyte
          cases hbyte
          decide
        obtain ⟨htake, hdrop⟩ := takeWhile_digits hinteger hpoint
        obtain ⟨htake', hdrop'⟩ := takeWhile_digits hdecimals hexponent.head_digit
        rw [List.append_assoc, List.cons_append]
        simp only [htake, hdrop, fraction, if_true, htake', hdrop']
        rw [if_neg]
        · exact endsNumber_iff.mpr hexponent
        · intro hcount
          rcases hnonempty with hne | hne <;> exact hne (List.eq_nil_of_length_eq_zero (by omega))

/-- A signed decimal number. -/
def SignedDecimal (field : List UInt8) : Prop :=
  ∃ sign mantissa exponent, isSign sign = true ∧ Mantissa mantissa ∧ Exponent exponent ∧
    field = sign :: (mantissa ++ exponent)

/-- An infinity with its sign. -/
def SignedInfinity (field : List UInt8) : Prop :=
  ∃ sign, isSign sign = true ∧ field = sign :: "Infinity".toList.map ascii

/-- A cell with a sign is numeric when it is a signed decimal number or a signed infinity. -/
theorem isNumericCell_iff {sign : UInt8} (hsign : isSign sign = true) {rest : List UInt8} :
    isNumericCell (sign :: rest) = true ↔
      SignedDecimal (sign :: rest) ∨ SignedInfinity (sign :: rest) := by
  unfold isNumericCell
  rw [Bool.or_eq_true, isDecimalNumber_iff hsign]
  refine or_congr ⟨?_, ?_⟩ ⟨?_, ?_⟩
  · rintro ⟨mantissa, exponent, hmantissa, hexponent, rfl⟩
    exact ⟨sign, mantissa, exponent, hsign, hmantissa, hexponent, rfl⟩
  · rintro ⟨other, mantissa, exponent, -, hmantissa, hexponent, heq⟩
    exact ⟨mantissa, exponent, hmantissa, hexponent, (List.cons.inj heq).2⟩
  · intro h
    have hrest : rest = signedInfinityTail := by simpa using h
    exact ⟨sign, hsign, by rw [hrest]; rfl⟩
  · rintro ⟨other, -, heq⟩
    have hrest : rest = signedInfinityTail := (List.cons.inj heq).2
    simp [hrest]

end Chronicle.Output
