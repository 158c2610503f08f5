import Mathlib.Data.List.Basic

/-!
# Comma-separated records

Records of cells as bytes: cells are parted by commas and records by line breaks. A cell may stand
in quotes, where a doubled quote is one quote; a blank line is no record.
-/

namespace Chronicle.Library.Csv

/-- The bytes of one cell. -/
abbrev Cell := List UInt8

/-- The cells of one record. -/
abbrev Record := List Cell

/-- The byte of a comma. -/
def comma : UInt8 := 44

/-- The byte of a quote. -/
def quote : UInt8 := 34

/-- The byte of a line feed. -/
def lineFeed : UInt8 := 10

/-- A line feed or a carriage return. -/
def isBreak (byte : UInt8) : Bool := byte = lineFeed || byte = 13

/-! ## Reading -/

/-- Where the reader stands. -/
inductive State where
  | startRecord
  | startCell
  | inCell
  | inQuotes
  | afterQuote
deriving DecidableEq, Repr

/-- What becomes of a byte. -/
inductive Action where
  | skip
  | copy
  | endCell (recordEnd : Bool)
deriving DecidableEq, Repr

/-- A byte outside quotes. -/
def stepOutside (byte : UInt8) : State × Action :=
  if isBreak byte then (.startRecord, .endCell true)
  else if byte = comma then (.startCell, .endCell false)
  else (.inCell, .copy)

/-- One byte. -/
def step : State → UInt8 → State × Action
  | .startRecord, byte =>
      if isBreak byte then (.startRecord, .skip)
      else if byte = quote then (.inQuotes, .skip) else stepOutside byte
  | .startCell, byte => if byte = quote then (.inQuotes, .skip) else stepOutside byte
  | .inCell, byte => stepOutside byte
  | .inQuotes, byte => if byte = quote then (.afterQuote, .skip) else (.inQuotes, .copy)
  | .afterQuote, byte => if byte = quote then (.inQuotes, .copy) else stepOutside byte

/-- The cells that are finished, each with whether it ends its record, and the bytes of the next. -/
structure Reading where
  state : State := .startRecord
  finished : List (Cell × Bool) := []
  cell : Cell := []
deriving DecidableEq, Repr

/-- The reading after one more byte. -/
def Reading.push (reading : Reading) (byte : UInt8) : Reading :=
  let (state, action) := step reading.state byte
  match action with
  | .skip => { reading with state := state }
  | .copy => { reading with state := state, cell := reading.cell ++ [byte] }
  | .endCell recordEnd => ⟨state, reading.finished ++ [(reading.cell, recordEnd)], []⟩

/-- The reading of a text. -/
def read (bytes : List UInt8) : Reading := bytes.foldl Reading.push {}

/-- The cell that the end of the text cuts off. -/
def Reading.cut (reading : Reading) : Option Cell :=
  if reading.state = .startRecord then none else some reading.cell

/-- The records of finished cells; `cells` are those of the record being collected. -/
def collectRecords (cells : Record) : List (Cell × Bool) → List Record
  | [] => []
  | (cell, recordEnd) :: rest =>
      if recordEnd then (cells ++ [cell]) :: collectRecords [] rest
      else collectRecords (cells ++ [cell]) rest

/-- All cells of a reading: the one that is cut off ends the last record. -/
def Reading.cells (reading : Reading) : List (Cell × Bool) :=
  reading.finished ++ (reading.cut.map (·, true)).toList

/-! ## Writing -/

/-- The cell has to be quoted. -/
def needsQuotes (cell : Cell) : Bool :=
  cell.any fun byte => isBreak byte || byte = quote || byte = comma

/-- The cell in quotes. -/
def quoted (cell : Cell) : List UInt8 :=
  quote :: cell.flatMap (fun byte => if byte = quote then [quote, quote] else [byte]) ++ [quote]

/-- One cell. -/
def writeCell (cell : Cell) : List UInt8 := if needsQuotes cell then quoted cell else cell

/-- The cells of a record and its line feed. -/
def writeCells : Record → List UInt8
  | [] => [lineFeed]
  | [cell] => writeCell cell ++ [lineFeed]
  | cell :: rest => writeCell cell ++ comma :: writeCells rest

/-- One record; a lone empty cell is quoted, as its line would be blank. -/
def writeRecord (record : Record) : List UInt8 :=
  if record = [[]] then [quote, quote, lineFeed] else writeCells record

/-- All records. -/
def write (records : List Record) : List UInt8 := records.flatMap writeRecord

/-! ## Round trip -/

/-- The cells of a record, the last of which ends it. -/
def markLast : Record → List (Cell × Bool)
  | [] => []
  | [cell] => [(cell, true)]
  | cell :: rest => (cell, false) :: markLast rest

theorem collectRecords_markLast {record : Record} (hrecord : record ≠ []) (cells : Record)
    (rest : List (Cell × Bool)) :
    collectRecords cells (markLast record ++ rest) =
      (cells ++ record) :: collectRecords [] rest := by
  induction record generalizing cells with
  | nil => exact absurd rfl hrecord
  | cons cell record ih =>
      cases record with
      | nil => rfl
      | cons next record =>
          have htail := ih (List.cons_ne_nil next record) (cells ++ [cell])
          rwa [List.append_assoc] at htail

theorem collectRecords_flatMap_markLast {records : List Record}
    (hrecords : ∀ record ∈ records, record ≠ []) :
    collectRecords [] (records.flatMap markLast) = records := by
  induction records with
  | nil => rfl
  | cons record records ih =>
      rw [List.flatMap_cons, collectRecords_markLast (hrecords record List.mem_cons_self),
        ih fun later hlater => hrecords later (List.mem_cons_of_mem record hlater)]
      rfl

section Push

variable {reading : Reading} {cell : Cell}

theorem push_comma (h : reading.state ≠ .inQuotes) :
    reading.push comma = ⟨.startCell, reading.finished ++ [(reading.cell, false)], []⟩ := by
  obtain ⟨state, finished, cell⟩ := reading
  cases state with
  | inQuotes => exact absurd rfl h
  | startRecord => rfl
  | startCell => rfl
  | inCell => rfl
  | afterQuote => rfl

theorem push_lineFeed (h : reading.state ≠ .inQuotes) (hstart : reading.state ≠ .startRecord) :
    reading.push lineFeed = ⟨.startRecord, reading.finished ++ [(reading.cell, true)], []⟩ := by
  obtain ⟨state, finished, cell⟩ := reading
  cases state with
  | inQuotes => exact absurd rfl h
  | startRecord => exact absurd rfl hstart
  | startCell => rfl
  | inCell => rfl
  | afterQuote => rfl

theorem push_plain {byte : UInt8} (h : reading.state ≠ .inQuotes)
    (hafter : reading.state ≠ .afterQuote) (hbreak : isBreak byte = false) (hquote : byte ≠ quote)
    (hcomma : byte ≠ comma) :
    reading.push byte = ⟨.inCell, reading.finished, reading.cell ++ [byte]⟩ := by
  obtain ⟨state, finished, cell⟩ := reading
  cases state with
  | inQuotes => exact absurd rfl h
  | afterQuote => exact absurd rfl hafter
  | startRecord => simp [Reading.push, step, stepOutside, hbreak, hquote, hcomma]
  | startCell => simp [Reading.push, step, stepOutside, hbreak, hquote, hcomma]
  | inCell => simp [Reading.push, step, stepOutside, hbreak, hcomma]

theorem foldl_push_plain (h : reading.state ≠ .inQuotes) (hafter : reading.state ≠ .afterQuote)
    (hplain : needsQuotes cell = false) (hcell : cell ≠ []) :
    cell.foldl Reading.push reading = ⟨.inCell, reading.finished, reading.cell ++ cell⟩ := by
  induction cell generalizing reading with
  | nil => exact absurd rfl hcell
  | cons byte cell ih =>
      simp only [needsQuotes, List.any_cons, Bool.or_eq_false_iff, decide_eq_false_iff_not] at hplain
      obtain ⟨⟨⟨hbreak, hquote⟩, hcomma⟩, hrest⟩ := hplain
      rw [List.foldl_cons, push_plain h hafter hbreak hquote hcomma]
      by_cases hlast : cell = []
      · rw [hlast]
        rfl
      · rw [ih (by simp) (by simp) hrest hlast, List.append_assoc]
        rfl

theorem foldl_push_inQuotes (h : reading.state = .inQuotes) :
    (cell.flatMap fun byte => if byte = quote then [quote, quote] else [byte]).foldl Reading.push
      reading = ⟨.inQuotes, reading.finished, reading.cell ++ cell⟩ := by
  induction cell generalizing reading with
  | nil => simp [← h]
  | cons byte cell ih =>
      have hbyte : (if byte = quote then [quote, quote] else [byte]).foldl Reading.push reading =
          ⟨.inQuotes, reading.finished, reading.cell ++ [byte]⟩ := by
        split
        · next hquote => simp [Reading.push, step, h, hquote]
        · next hquote => simp [Reading.push, step, h, hquote]
      rw [List.flatMap_cons, List.foldl_append, hbyte, ih rfl, List.append_assoc]
      rfl

theorem foldl_push_quoted (h : reading.state = .startRecord ∨ reading.state = .startCell)
    (hempty : reading.cell = []) :
    (quoted cell).foldl Reading.push reading = ⟨.afterQuote, reading.finished, cell⟩ := by
  have hopen : reading.push quote = ⟨.inQuotes, reading.finished, []⟩ := by
    rcases h with h | h <;> simp [Reading.push, step, h, hempty, quote, isBreak, lineFeed]
  rw [quoted, List.cons_append, List.foldl_cons, hopen, List.foldl_append, foldl_push_inQuotes rfl]
  rfl

/-- The state after a written cell. -/
def stateAfter (state : State) (cell : Cell) : State :=
  if needsQuotes cell then .afterQuote else if cell = [] then state else .inCell

theorem foldl_push_writeCell (h : reading.state = .startRecord ∨ reading.state = .startCell)
    (hempty : reading.cell = []) :
    (writeCell cell).foldl Reading.push reading =
      ⟨stateAfter reading.state cell, reading.finished, cell⟩ := by
  unfold writeCell stateAfter
  split
  · exact foldl_push_quoted h hempty
  · next hplain =>
      split
      · next hcell =>
          obtain ⟨state, finished, pending⟩ := reading
          cases hempty
          cases hcell
          rfl
      · next hcell =>
          have hnotQuotes : reading.state ≠ .inQuotes ∧ reading.state ≠ .afterQuote := by
            rcases h with h | h <;> simp [h]
          rw [foldl_push_plain hnotQuotes.1 hnotQuotes.2 (Bool.not_eq_true _ ▸ hplain) hcell,
            hempty, List.nil_append]

theorem stateAfter_ne_inQuotes {state : State} (h : state ≠ .inQuotes) :
    stateAfter state cell ≠ .inQuotes := by
  unfold stateAfter
  split
  · simp
  · split
    · exact h
    · simp

theorem stateAfter_ne_startRecord {state : State} (h : state ≠ .startRecord ∨ cell ≠ []) :
    stateAfter state cell ≠ .startRecord := by
  unfold stateAfter
  split
  · simp
  · split
    · next hcell => exact h.resolve_right fun hne => hne hcell
    · simp

theorem foldl_push_writeCells {record : Record} (hrecord : record ≠ [])
    (h : reading.state = .startRecord ∨ reading.state = .startCell) (hempty : reading.cell = [])
    (hblank : reading.state = .startRecord → record ≠ [[]]) :
    (writeCells record).foldl Reading.push reading =
      ⟨.startRecord, reading.finished ++ markLast record, []⟩ := by
  induction record generalizing reading with
  | nil => exact absurd rfl hrecord
  | cons cell record ih =>
      have hquotes : reading.state ≠ .inQuotes := by rcases h with h | h <;> simp [h]
      cases record with
      | nil =>
          have hstart : reading.state ≠ .startRecord ∨ cell ≠ [] := by
            by_contra hboth
            simp only [not_or, not_not] at hboth
            exact hblank hboth.1 (by rw [hboth.2])
          rw [writeCells, List.foldl_append, foldl_push_writeCell h hempty]
          exact push_lineFeed (stateAfter_ne_inQuotes hquotes) (stateAfter_ne_startRecord hstart)
      | cons next record =>
          rw [writeCells, List.foldl_append, foldl_push_writeCell h hempty, List.foldl_cons,
            push_comma (stateAfter_ne_inQuotes hquotes),
            ih (List.cons_ne_nil next record) (.inr rfl) rfl (by simp)]
          · simp [markLast]
          · simp

theorem foldl_push_writeRecord {record : Record} (hrecord : record ≠ [])
    (h : reading.state = .startRecord) (hempty : reading.cell = []) :
    (writeRecord record).foldl Reading.push reading =
      ⟨.startRecord, reading.finished ++ markLast record, []⟩ := by
  unfold writeRecord
  split
  · next hblank =>
      obtain ⟨state, finished, cell⟩ := reading
      cases h
      cases hempty
      rw [hblank]
      rfl
  · next hblank => exact foldl_push_writeCells hrecord (.inl h) hempty fun _ => hblank

/-- Outside quotes a final line feed changes no cell. -/
theorem cells_push_lineFeed (h : reading.state ≠ .inQuotes) :
    (reading.push lineFeed).cut = none ∧ (reading.push lineFeed).cells = reading.cells := by
  by_cases hstart : reading.state = .startRecord
  · obtain ⟨state, finished, cell⟩ := reading
    cases hstart
    exact ⟨rfl, rfl⟩
  · rw [push_lineFeed h hstart]
    simp [Reading.cells, Reading.cut, hstart]

/-- In quotes it is one more byte of the cell that is cut off. -/
theorem push_lineFeed_inQuotes (h : reading.state = .inQuotes) :
    reading.push lineFeed = ⟨.inQuotes, reading.finished, reading.cell ++ [lineFeed]⟩ := by
  obtain ⟨state, finished, cell⟩ := reading
  cases h
  rfl

end Push

theorem read_write {records : List Record} (hrecords : ∀ record ∈ records, record ≠ []) :
    read (write records) = ⟨.startRecord, records.flatMap markLast, []⟩ := by
  have hrun : ∀ reading : Reading, reading.state = .startRecord → reading.cell = [] →
      (write records).foldl Reading.push reading =
        ⟨.startRecord, reading.finished ++ records.flatMap markLast, []⟩ := by
    induction records with
    | nil =>
        rintro ⟨state, finished, cell⟩ rfl rfl
        simp [write]
    | cons record records ih =>
        intro reading hstate hcell
        have htail := ih fun later hlater => hrecords later (List.mem_cons_of_mem record hlater)
        rw [write, List.flatMap_cons, List.foldl_append,
          foldl_push_writeRecord (hrecords record List.mem_cons_self) hstate hcell]
        rw [← write, htail _ rfl rfl, List.flatMap_cons, List.append_assoc]
  exact hrun {} rfl rfl

end Chronicle.Library.Csv
