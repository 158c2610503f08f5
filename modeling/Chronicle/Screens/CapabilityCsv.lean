import Chronicle.Library.Rfc4180
import Chronicle.Screens.Applicability
import Mathlib.Data.List.DropRight

/-!
# The records of a capability sidecar

The scanner of the capability sidecar is the reader of quoted records over characters, with trailing
blank records taken off.
-/

namespace Chronicle.Screens

open Chronicle.Library Chronicle.Library.Peekable Chronicle.Library.Rfc4180

/-- `CsvRecord` -/
structure CsvRecord where
  fields : List String
  startLine : Nat
deriving DecidableEq, Repr

/-- The variables of `parse_csv_records`; lines are counted from one. -/
structure CsvScan where
  records : List CsvRecord := []
  fields : List String := []
  field : String := ""
  quoted : Bool := false
  afterQuote : Bool := false
  line : Nat := 1
  recordStartLine : Nat := 1
deriving DecidableEq, Repr

/-- `CapabilityEvidenceErrorDetail::MalformedCsv` at the record that begins on the line. -/
def malformedCsv (recordStartLine : Nat) : CapabilityEvidenceError where
  detail := "malformed_csv"
  physicalDataRow := some recordStartLine

namespace CsvScan

def pushChar (scan : CsvScan) (ch : Char) : CsvScan := { scan with field := scan.field.push ch }

/-- The field is taken. -/
def takeField (scan : CsvScan) : CsvScan :=
  { scan with fields := scan.fields ++ [scan.field], field := "" }

/-- The field and the record are taken, and the next line begins. -/
def takeRecord (scan : CsvScan) : CsvScan :=
  { scan with
    records := scan.records ++ [⟨scan.fields ++ [scan.field], scan.recordStartLine⟩]
    fields := []
    field := ""
    line := scan.line + 1
    recordStartLine := scan.line + 1 }

/-- One pass of `while let Some(ch) = chars.next()`. -/
def pass : Pass Char CsvScan CapabilityEvidenceError := fun scan ch peek =>
  if scan.quoted then
    if ch = '"' ∧ peek = some '"' then .ok (scan.pushChar '"', true)
    else if ch = '"' then .ok ({ scan with quoted := false, afterQuote := true }, false)
    else if ch = '\n' then .ok ({ scan with line := scan.line + 1 }.pushChar ch, false)
    else .ok (scan.pushChar ch, false)
  else if scan.afterQuote then
    if ch = ',' then .ok ({ scan.takeField with afterQuote := false }, false)
    else if ch = '\n' then .ok ({ scan.takeRecord with afterQuote := false }, false)
    else if ch = '\r' ∧ peek = some '\n' then .ok ({ scan.takeRecord with afterQuote := false }, true)
    else .error (malformedCsv scan.recordStartLine)
  else if ch = '"' ∧ scan.field.isEmpty then .ok ({ scan with quoted := true }, false)
  else if ch = '"' then .error (malformedCsv scan.recordStartLine)
  else if ch = ',' then .ok (scan.takeField, false)
  else if ch = '\n' then .ok (scan.takeRecord, false)
  else if ch = '\r' ∧ peek = some '\n' then .ok (scan.takeRecord, true)
  else .ok (scan.pushChar ch, false)

/-- The record that the end of the text ends. -/
def finish (scan : CsvScan) : Except CapabilityEvidenceError (List CsvRecord) :=
  if scan.quoted then .error (malformedCsv scan.recordStartLine)
  else if scan.afterQuote ∨ ¬ scan.field.isEmpty ∨ ¬ scan.fields.isEmpty then
    .ok (scan.records ++ [⟨scan.fields ++ [scan.field], scan.recordStartLine⟩])
  else .ok scan.records

end CsvScan

/-- A record of one empty field. -/
def CsvRecord.isBlank (record : CsvRecord) : Bool :=
  record.fields.length = 1 ∧ record.fields.head?.any String.isEmpty

/-- `parse_csv_records` -/
def parseCsvRecords (text : String) : Except CapabilityEvidenceError (List CsvRecord) := do
  let scan ← loop CsvScan.pass false {} text.toList
  let records ← scan.finish
  return records.rdropWhile CsvRecord.isBlank

/-! ## The scanner and the reader -/

/-- A record that the reader finished. -/
def CsvRecord.ofRead (record : Nat × List (List Char)) : CsvRecord :=
  ⟨record.2.map String.ofList, record.1⟩

/-- The scanner's variables where the reader stands. -/
def CsvScan.ofReader (reader : Reader Char) : CsvScan where
  records := reader.finished.map CsvRecord.ofRead
  fields := reader.fields.map String.ofList
  field := String.ofList reader.field
  quoted := reader.mode = .inside
  afterQuote := reader.mode = .closed
  line := reader.line
  recordStartLine := reader.startLine

namespace CsvScan

variable {reader : Reader Char} {ch : Char} {peek : Option Char}

/-- What the scanner does where the reader does `outcome`. -/
def seen (outcome : Except Nat (Reader Char × Bool)) :
    Except CapabilityEvidenceError (CsvScan × Bool) :=
  (outcome.map fun next => (ofReader next.1, next.2)).mapError malformedCsv

end CsvScan

end Chronicle.Screens
