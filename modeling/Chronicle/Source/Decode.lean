import Chronicle.Eyes.Evidence
import Chronicle.Library.Csv

/-!
# The raw export

Two readers walk a raw export: the execution decoder takes the cells of each record from a reader
of single fields, and the split into studies takes whole records. The readers and the writer come
with the laws that the decoder and the split rely on.
-/

namespace Chronicle.Source

open Chronicle.Library Chronicle.Library.Csv

/-! ## Text -/

/-- `U+FFFD` -/
def replacement : Char := Char.ofNat 0xFFFD

/-- A character that has begun: the bytes it still lacks, the range of the next one, and the bits
so far. -/
structure PendingChar where
  owed : Nat
  least : UInt8
  greatest : UInt8
  code : Nat
deriving DecidableEq, Repr

/-- The first byte of a character: the character, the one that has begun, or a replacement. -/
def startChar (byte : UInt8) : List Char × Option PendingChar :=
  if byte < 0x80 then ([Char.ofNat byte.toNat], none)
  else if 0xC2 ≤ byte ∧ byte ≤ 0xDF then ([], some ⟨1, 0x80, 0xBF, byte.toNat - 0xC0⟩)
  else if byte = 0xE0 then ([], some ⟨2, 0xA0, 0xBF, 0⟩)
  else if byte = 0xED then ([], some ⟨2, 0x80, 0x9F, 0xD⟩)
  else if 0xE1 ≤ byte ∧ byte ≤ 0xEF then ([], some ⟨2, 0x80, 0xBF, byte.toNat - 0xE0⟩)
  else if byte = 0xF0 then ([], some ⟨3, 0x90, 0xBF, 0⟩)
  else if 0xF1 ≤ byte ∧ byte ≤ 0xF3 then ([], some ⟨3, 0x80, 0xBF, byte.toNat - 0xF0⟩)
  else if byte = 0xF4 then ([], some ⟨3, 0x80, 0x8F, 4⟩)
  else ([replacement], none)

/-- One byte of the text; a character that breaks off is replaced. -/
def decodeByte : Option PendingChar → UInt8 → List Char × Option PendingChar
  | none, byte => startChar byte
  | some pending, byte =>
      if pending.least ≤ byte ∧ byte ≤ pending.greatest then
        let code := pending.code * 64 + (byte.toNat - 0x80)
        if pending.owed ≤ 1 then ([Char.ofNat code], none)
        else ([], some ⟨pending.owed - 1, 0x80, 0xBF, code⟩)
      else (replacement :: (startChar byte).1, (startChar byte).2)

/-- The characters of the bytes. -/
def decodeBytes (pending : Option PendingChar) : List UInt8 → List Char
  | [] => if pending.isSome then [replacement] else []
  | byte :: bytes => (decodeByte pending byte).1 ++ decodeBytes (decodeByte pending byte).2 bytes

/-- `String::from_utf8_lossy` -/
def fromUtf8Lossy (bytes : List UInt8) : String := String.ofList (decodeBytes none bytes)

/-- `str::trim` -/
def trim (text : String) : String :=
  String.ofList ((text.toList.dropWhile Eyes.isWhitespace).reverse.dropWhile Eyes.isWhitespace).reverse

/-- A header name without surrounding blanks and leading byte-order marks. -/
def normalizedHeader (header : String) : String :=
  String.ofList ((trim header).toList.dropWhile (· = Char.ofNat 0xFEFF))

/-- `str::parse::<u32>` -/
def parseU32 (text : String) : Option Nat :=
  let digits := if text.toList.head? = some '+' then text.toList.tail else text.toList
  if digits ≠ [] ∧ digits.all Char.isDigit then
    let value := digits.foldl (fun value digit => value * 10 + (digit.toNat - 48)) 0
    if value < 2 ^ 32 then some value else none
  else none

/-! ## The readers and the writer -/

/-- `ReadFieldResult`, with the bytes that came with it; `End` is the end of the list. -/
inductive ReadFieldResult where
  | inputEmpty (produced : Cell)
  | outputFull (produced : Cell)
  | field (produced : Cell) (recordEnd : Bool)
deriving DecidableEq, Repr

/-- The result reports that the input is used up. -/
def ReadFieldResult.isInputEmpty : ReadFieldResult → Bool
  | inputEmpty _ => true
  | _ => false

/-- What `read_field` reports of a whole input: the input is used up at its end only, and a field
that the end cuts off is reported again, as finished, by the call after that. -/
structure FieldReads where
  read : List ReadFieldResult
  cut : Option Cell
  atEndOnly : ∀ result ∈ read, result.isInputEmpty = false

/-- The results, in order. -/
def FieldReads.results (reads : FieldReads) : List ReadFieldResult :=
  reads.read ++
    match reads.cut with
    | none => []
    | some produced => [.inputEmpty produced, .field [] true]

/-- The fields as documented: what comes with any result belongs to the field. -/
def joinFields (carried : Cell) : List ReadFieldResult → List (Cell × Bool)
  | [] => []
  | .inputEmpty produced :: rest => joinFields (carried ++ produced) rest
  | .outputFull produced :: rest => joinFields (carried ++ produced) rest
  | .field produced recordEnd :: rest => (carried ++ produced, recordEnd) :: joinFields [] rest

/-- The fields that a reading consists of. -/
def FieldReads.fields (reads : FieldReads) : List (Cell × Bool) := joinFields [] reads.results

/-- The readers and the writer of the library, and what is documented of them: records are read
field by field, a line feed at the end of the text changes no field unless a quoted one is still
open, and what was written is read back. -/
structure CsvLibrary where
  readField : List UInt8 → FieldReads
  byteRecords : List UInt8 → Except String (List Record)
  writeByteRecords : List Record → List UInt8
  byteRecords_eq : ∀ bytes,
    byteRecords bytes = .ok (collectRecords [] (readField bytes).fields)
  closed : ∀ bytes, (readField (bytes ++ [lineFeed])).cut = none →
    (readField (bytes ++ [lineFeed])).fields = (readField bytes).fields
  stillOpen : ∀ bytes, (readField (bytes ++ [lineFeed])).cut ≠ none → ∃ fields cell,
    (readField (bytes ++ [lineFeed])).fields = fields ++ [(cell ++ [lineFeed], true)] ∧
      (readField bytes).fields = fields ++ [(cell, true)]
  written : ∀ records, (∀ record ∈ records, record ≠ []) →
    collectRecords [] (readField (writeByteRecords records)).fields = records ∧
      (readField (writeByteRecords records)).cut = none ∧
      (records ≠ [] → (writeByteRecords records).getLast? = some lineFeed)

/-! ## The execution decoder -/

/-- `RawRow` -/
structure RawRow where
  sourceDataRow : Nat
  eventTimestamp : String
  timezone : String
  appPackageName : String
  interactionType : String
  applicationLabel : String
  studyId : String
  participantId : String
  username : String
deriving DecidableEq, Repr

/-- The bytes as the decoder reads them: with a line feed at the end. -/
def terminated (bytes : List UInt8) : List UInt8 :=
  if bytes.getLast? = some lineFeed then bytes else bytes ++ [lineFeed]

/-- The fields as the decoder takes them: it carries what comes with `OutputFull` along, and drops
what comes with `InputEmpty`. -/
def takeFields (carried : Cell) : List ReadFieldResult → List (Cell × Bool)
  | [] => []
  | .inputEmpty _ :: rest => takeFields carried rest
  | .outputFull produced :: rest => takeFields (carried ++ produced) rest
  | .field produced recordEnd :: rest => (carried ++ produced, recordEnd) :: takeFields [] rest

/-- The first loop: the headers, and the fields after them. -/
def takeHeaders : List (Cell × Bool) → List String × List (Cell × Bool)
  | [] => ([], [])
  | (cell, true) :: rest => ([fromUtf8Lossy cell], rest)
  | (cell, false) :: rest =>
      (fromUtf8Lossy cell :: (takeHeaders rest).1, (takeHeaders rest).2)

/-- `column_indices.get`: of several headers of one name the map keeps the last. -/
def columnIndex (headers : List String) (name : String) : Option Nat :=
  ((headers.zipIdx.map fun entry => (normalizedHeader entry.1, entry.2)).reverse).lookup name

/-- The cell of a column, trimmed; a short record has none. -/
def columnText (headers values : List String) (name : String) : String :=
  trim (((columnIndex headers name).bind (values[·]?)).getD "")

/-- The row of one record; `dataRowNumber` counts it from one. -/
def rawRow (headers values : List String) (dataRowNumber : Nat) : RawRow where
  sourceDataRow :=
    ((parseU32 (columnText headers values "literature_source_data_row")).filter (0 < ·)).getD
      dataRowNumber
  eventTimestamp := columnText headers values "event_timestamp"
  timezone := columnText headers values "timezone"
  appPackageName := columnText headers values "app_package_name"
  interactionType := columnText headers values "interaction_type"
  applicationLabel := columnText headers values "application_label"
  studyId := columnText headers values "study_id"
  participantId := columnText headers values "participant_id"
  username := columnText headers values "username"

/-- The variables of the second loop. -/
structure DecodeLoop where
  rowValues : List String
  columnIndex : Nat := 0
  dataRowNumber : Nat := 0
  rawRows : List RawRow := []

/-- One field in the second loop. -/
def DecodeLoop.push (headers : List String) (loop : DecodeLoop) (field : Cell × Bool) :
    DecodeLoop :=
  let rowValues := loop.rowValues.set loop.columnIndex (fromUtf8Lossy field.1)
  if field.2 then
    { rowValues := rowValues.map fun _ => ""
      columnIndex := 0
      dataRowNumber := loop.dataRowNumber + 1
      rawRows := loop.rawRows ++ [rawRow headers rowValues (loop.dataRowNumber + 1)] }
  else
    { loop with
      rowValues := rowValues
      columnIndex := loop.columnIndex + 1 }

/-- `decode_source_records` -/
def decodeSourceRecords (csv : CsvLibrary) (bytes : List UInt8) : List RawRow :=
  let (headers, fields) := takeHeaders (takeFields [] (csv.readField (terminated bytes)).results)
  (fields.foldl (DecodeLoop.push headers) { rowValues := headers.map fun _ => "" }).rawRows

/-! ## The split into studies -/

/-- `Iterator::rposition` -/
def rposition {α : Type} (p : α → Bool) (l : List α) : Option Nat :=
  (l.zipIdx.reverse.find? fun entry => p entry.1).map Prod.snd

/-- `for_each_record_study`: the records in order, each with the study it belongs to; the header
comes first, with none. -/
def recordStudies (csv : CsvLibrary) (bytes : List UInt8) :
    Except String (List (Option String × Record)) := do
  match ← csv.byteRecords bytes with
  | [] => pure []
  | header :: records =>
      let column := rposition (fun name => normalizedHeader (fromUtf8Lossy name) = "study_id") header
      pure ((none, header) :: records.map fun record =>
        (some (trim (((column.bind (record[·]?)).map fromUtf8Lossy).getD "")), record))

/-- `raw_study_ids_to_split`: at least two studies that are not blank, or nothing. -/
def rawStudyIdsToSplit (csv : CsvLibrary) (bytes : List UInt8) : List String :=
  match recordStudies csv bytes with
  | .error _ => []
  | .ok entries =>
      let studies := StableSort.sortByKey id (entries.filterMap Prod.fst).dedup
      if (studies.filter (· ≠ "")).length < 2 then [] else studies

/-- One record for the writers: the header goes to all of them, a record to the one of its study. -/
def writeToStudies (writers : List (String × List Record)) (entry : Option String × Record) :
    List (String × List Record) :=
  writers.map fun writer =>
    if entry.1.all (· = writer.1) then (writer.1, writer.2 ++ [entry.2]) else writer

/-- `split_raw_by_study` -/
def splitRawByStudy (csv : CsvLibrary) (bytes : List UInt8) : List (String × List UInt8) :=
  match recordStudies csv bytes with
  | .error _ => []
  | .ok entries =>
      let writers := (rawStudyIdsToSplit csv bytes).map fun study => (study, [])
      (entries.foldl writeToStudies writers).map fun writer =>
        (writer.1, csv.writeByteRecords writer.2)

end Chronicle.Source
