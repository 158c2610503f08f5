import Chronicle.Source.Decode

/-!
# The split into studies against the decoder

The decoder makes one row of every record, and the split sorts the same records by the same column.
The two differ in a single place: the decoder drops what it has of a field that the end of the file
cuts off. The split is a partition of the decode exactly when no column of the decoder loses text
that way.
-/

namespace Chronicle.Source

open Chronicle.Library Chronicle.Library.Csv

/-! ## Columns -/

section Columns

variable {headers values : List String} {name : String}

theorem lookup_reverse_zipIdx {α : Type} (l : List α) (f : α → String) (name : String) :
    ((l.zipIdx.map fun entry => (f entry.1, entry.2)).reverse).lookup name =
      rposition (fun x => f x = name) l := by
  unfold rposition
  rw [← List.map_reverse]
  induction l.zipIdx.reverse with
  | nil => rfl
  | cons entry entries ih =>
      rw [List.map_cons, List.lookup_cons, List.find?_cons]
      by_cases hname : f entry.1 = name
      · simp [hname]
      · have hbeq : (name == f entry.1) = false := beq_false_of_ne fun h => hname h.symm
        simpa [hname, hbeq] using ih

theorem rposition_map {α β : Type} (p : β → Bool) (f : α → β) (l : List α) :
    rposition p (l.map f) = rposition (fun x => p (f x)) l := by
  unfold rposition
  rw [List.zipIdx_map, ← List.map_reverse]
  induction l.zipIdx.reverse with
  | nil => rfl
  | cons entry entries ih =>
      rw [List.map_cons, List.find?_cons, List.find?_cons]
      cases hp : p (f entry.1) with
      | true => simp [hp]
      | false => simpa [hp] using ih

/-- The last header of a name is the one that both readers find. -/
theorem columnIndex_map (header : Record) (name : String) :
    columnIndex (header.map fromUtf8Lossy) name =
      rposition (fun cell => normalizedHeader (fromUtf8Lossy cell) = name) header := by
  unfold columnIndex
  rw [lookup_reverse_zipIdx]
  exact rposition_map _ _ header

theorem columnIndex_lt {index : Nat} (h : columnIndex headers name = some index) :
    index < headers.length := by
  unfold columnIndex at h
  rw [lookup_reverse_zipIdx, rposition, Option.map_eq_some_iff] at h
  obtain ⟨entry, hentry, rfl⟩ := h
  have hmem := List.mem_reverse.mp (List.mem_of_find?_eq_some hentry)
  have hbound := List.snd_lt_of_mem_zipIdx hmem
  simpa using hbound

/-- The values of the first columns of a record that is being read. -/
def padded (columns : Nat) (cells : Record) : List String :=
  (List.range columns).map fun index => ((cells[index]?).map fromUtf8Lossy).getD ""

theorem padded_nil (headers : List String) :
    padded headers.length [] = headers.map fun _ => "" := by
  refine List.ext_getElem (by simp [padded]) fun index _ _ => ?_
  simp [padded]

theorem padded_set (columns : Nat) (cells : Record) (cell : Cell) :
    (padded columns cells).set cells.length (fromUtf8Lossy cell) =
      padded columns (cells ++ [cell]) := by
  refine List.ext_getElem (by simp [padded]) fun index hleft hright => ?_
  simp only [padded, List.getElem_set, List.getElem_map, List.getElem_range]
  split
  · next hindex => simp [← hindex]
  · next hindex =>
      rcases Nat.lt_or_gt_of_ne hindex with hlt | hgt
      · rw [List.getElem?_eq_none (by omega), List.getElem?_eq_none (by simp; omega)]
      · rw [List.getElem?_append_left hgt]

theorem columnText_padded (cells : Record) :
    columnText headers (padded headers.length cells) name =
      columnText headers (cells.map fromUtf8Lossy) name := by
  unfold columnText
  cases hindex : columnIndex headers name with
  | none => rfl
  | some index =>
      have hbound := columnIndex_lt hindex
      simp only [Option.bind_some, padded, List.getElem?_map,
        List.getElem?_range hbound, Option.map_some, Option.getD_some]

theorem rawRow_padded (cells : Record) (number : Nat) :
    rawRow headers (padded headers.length cells) number =
      rawRow headers (cells.map fromUtf8Lossy) number := by
  simp only [rawRow, columnText_padded]

end Columns

/-! ## The rows of a table -/

/-- The rows of the records after the header, numbered on. -/
def rowsFrom (headers : List String) : Nat → List Record → List RawRow
  | _, [] => []
  | number, record :: records =>
      rawRow headers (record.map fromUtf8Lossy) number :: rowsFrom headers (number + 1) records

/-- The rows of a table with its header. -/
def tableRows : List Record → List RawRow
  | [] => []
  | header :: records => rowsFrom (header.map fromUtf8Lossy) 1 records

section Decode

variable {headers : List String} {rows : List RawRow} {number : Nat}

theorem push_inside (cells : Record) (cell : Cell) :
    DecodeLoop.push headers ⟨padded headers.length cells, cells.length, number, rows⟩ (cell, false) =
      ⟨padded headers.length (cells ++ [cell]), (cells ++ [cell]).length, number, rows⟩ := by
  simp [DecodeLoop.push, padded_set]

theorem push_recordEnd (cells : Record) (cell : Cell) :
    DecodeLoop.push headers ⟨padded headers.length cells, cells.length, number, rows⟩ (cell, true) =
      ⟨padded headers.length [], 0, number + 1,
        rows ++ [rawRow headers ((cells ++ [cell]).map fromUtf8Lossy) (number + 1)]⟩ := by
  have hclear : (padded headers.length (cells ++ [cell])).map (fun _ => "") =
      padded headers.length [] :=
    List.ext_getElem (by simp [padded]) fun index _ _ => by simp [padded]
  simp only [DecodeLoop.push, padded_set, rawRow_padded, hclear, if_true]

/-- The second loop makes a row of every record it completes. -/
theorem foldl_push (fields : List (Cell × Bool)) (cells : Record) :
    (fields.foldl (DecodeLoop.push headers)
      ⟨padded headers.length cells, cells.length, number, rows⟩).rawRows =
      rows ++ rowsFrom headers (number + 1) (collectRecords cells fields) := by
  induction fields generalizing cells number rows with
  | nil => simp [collectRecords, rowsFrom]
  | cons field fields ih =>
      obtain ⟨cell, recordEnd⟩ := field
      cases recordEnd with
      | false =>
          rw [List.foldl_cons, push_inside, ih]
          rfl
      | true =>
          rw [List.foldl_cons, push_recordEnd]
          refine (ih []).trans ?_
          simp [collectRecords, rowsFrom]

/-- The first loop takes the first record off the fields, if there is a whole one. -/
theorem takeHeaders_spec (fields : List (Cell × Bool)) (cells : Record) :
    (collectRecords cells fields = [] ∧ (takeHeaders fields).2 = []) ∨
      ∃ header : Record, (takeHeaders fields).1 = header.map fromUtf8Lossy ∧
        collectRecords cells fields =
          (cells ++ header) :: collectRecords [] (takeHeaders fields).2 := by
  induction fields generalizing cells with
  | nil => exact .inl ⟨rfl, rfl⟩
  | cons field fields ih =>
      obtain ⟨cell, recordEnd⟩ := field
      cases recordEnd with
      | true => exact .inr ⟨[cell], rfl, rfl⟩
      | false =>
          rcases ih (cells ++ [cell]) with ⟨hnone, hrest⟩ | ⟨header, hheaders, hrecords⟩
          · exact .inl ⟨hnone, hrest⟩
          · refine .inr ⟨cell :: header, by rw [takeHeaders, hheaders, List.map_cons], ?_⟩
            rw [List.append_assoc] at hrecords
            exact hrecords

/-- The decoder reads the table that its fields make up. -/
theorem decodeSourceRecords_eq (csv : CsvLibrary) (bytes : List UInt8) :
    decodeSourceRecords csv bytes =
      tableRows (collectRecords [] (takeFields [] (csv.readField (terminated bytes)).results)) := by
  unfold decodeSourceRecords
  generalize takeFields [] (csv.readField (terminated bytes)).results = fields
  dsimp only
  rw [← padded_nil]
  rcases takeHeaders_spec fields [] with ⟨hnone, hrest⟩ | ⟨header, hheaders, hrecords⟩
  · rw [hnone, hrest]
    rfl
  · rw [hrecords, hheaders]
    exact foldl_push (takeHeaders fields).2 []

end Decode

/-! ## Rows without their numbers -/

/-- The row without its number. -/
def RawRow.unnumbered (row : RawRow) : RawRow := { row with sourceDataRow := 0 }

/-- The row of a record under a header, without its number. -/
def recordRow (header record : Record) : RawRow :=
  (rawRow (header.map fromUtf8Lossy) (record.map fromUtf8Lossy) 0).unnumbered

theorem unnumbered_rawRow (headers values : List String) (number : Nat) :
    (rawRow headers values number).unnumbered = (rawRow headers values 0).unnumbered := by
  simp only [RawRow.unnumbered, rawRow]

theorem studyId_recordRow (header record : Record) :
    (recordRow header record).studyId =
      columnText (header.map fromUtf8Lossy) (record.map fromUtf8Lossy) "study_id" := by
  simp only [recordRow, RawRow.unnumbered, rawRow]

theorem unnumbered_rowsFrom (header : Record) (number : Nat) (records : List Record) :
    (rowsFrom (header.map fromUtf8Lossy) number records).map RawRow.unnumbered =
      records.map (recordRow header) := by
  induction records generalizing number with
  | nil => rfl
  | cons record records ih =>
      rw [rowsFrom, List.map_cons, List.map_cons, ih, unnumbered_rawRow, recordRow]

@[simp]
theorem unnumbered_studyId (row : RawRow) : row.unnumbered.studyId = row.studyId := rfl

/-! ## The split -/

section Split

variable {csv : CsvLibrary} {bytes : List UInt8} {header : Record} {records : List Record}

/-- The split reads each record's study as the decoder does. -/
theorem recordStudies_eq
    (htable : collectRecords [] (csv.readField bytes).fields = header :: records) :
    recordStudies csv bytes =
      .ok ((none, header) ::
        records.map fun record => (some (recordRow header record).studyId, record)) := by
  have hstudy : ∀ record : Record, (recordRow header record).studyId =
      trim ((((rposition (fun name => normalizedHeader (fromUtf8Lossy name) = "study_id")
        header).bind (record[·]?)).map fromUtf8Lossy).getD "") := by
    intro record
    rw [studyId_recordRow, columnText, columnIndex_map]
    cases rposition (fun name => normalizedHeader (fromUtf8Lossy name) = "study_id") header with
    | none => simp only [Option.bind_none, Option.map_none]
    | some index => rw [Option.bind_some, Option.bind_some, List.getElem?_map]
  simp only [recordStudies, csv.byteRecords_eq, htable, hstudy]
  rfl

/-- The studies of the records, each once, in order. -/
def studiesOf (header : Record) (records : List Record) : List String :=
  StableSort.sortByKey id (records.map fun record => (recordRow header record).studyId).dedup

theorem rawStudyIdsToSplit_eq
    (htable : collectRecords [] (csv.readField bytes).fields = header :: records) :
    rawStudyIdsToSplit csv bytes =
      if ((studiesOf header records).filter (· ≠ "")).length < 2 then []
      else studiesOf header records := by
  have hstudies : (((none, header) ::
      records.map fun record => (some (recordRow header record).studyId, record)).filterMap
        Prod.fst) = records.map fun record => (recordRow header record).studyId := by
    rw [List.filterMap_cons_none rfl, List.filterMap_map]
    exact congrFun List.filterMap_eq_map' records
  unfold rawStudyIdsToSplit
  rw [recordStudies_eq htable]
  simp only [hstudies]
  rfl

theorem foldl_writeToStudies (entries : List (Option String × Record))
    (writers : List (String × List Record)) :
    entries.foldl writeToStudies writers = writers.map fun writer =>
      (writer.1, writer.2 ++
        (entries.filter fun entry => entry.1.all (· = writer.1)).map Prod.snd) := by
  induction entries generalizing writers with
  | nil => simp
  | cons entry entries ih =>
      rw [List.foldl_cons, ih, writeToStudies, List.map_map]
      refine List.map_congr_left fun writer _ => ?_
      by_cases hstudy : entry.1.all (· = writer.1) = true
      · simp [hstudy]
      · simp [hstudy]

/-- Each part is the header with the records of its study. -/
theorem splitRawByStudy_eq
    (htable : collectRecords [] (csv.readField bytes).fields = header :: records) :
    splitRawByStudy csv bytes = (rawStudyIdsToSplit csv bytes).map fun study =>
      (study, csv.writeByteRecords (header ::
        records.filter fun record => (recordRow header record).studyId = study)) := by
  unfold splitRawByStudy
  rw [recordStudies_eq htable]
  simp only [foldl_writeToStudies, List.map_map]
  refine List.map_congr_left fun study _ => ?_
  simp [List.filter_map, Function.comp_def]

end Split

/-! ## The field that is cut off -/

/-- What is carried along for a field that has not ended. -/
def carriedAfter (carried : Cell) : List ReadFieldResult → Cell
  | [] => carried
  | .inputEmpty _ :: rest => carriedAfter carried rest
  | .outputFull produced :: rest => carriedAfter (carried ++ produced) rest
  | .field _ _ :: rest => carriedAfter [] rest

theorem takeFields_eq_joinFields {results : List ReadFieldResult}
    (h : ∀ result ∈ results, result.isInputEmpty = false) (carried : Cell) :
    takeFields carried results = joinFields carried results := by
  induction results generalizing carried with
  | nil => rfl
  | cons result results ih =>
      have hrest := ih fun later hlater => h later (List.mem_cons_of_mem result hlater)
      cases result with
      | inputEmpty produced => exact absurd (h _ List.mem_cons_self) Bool.noConfusion
      | outputFull produced => exact hrest (carried ++ produced)
      | field produced recordEnd => rw [takeFields, joinFields, hrest]

theorem joinFields_append {results : List ReadFieldResult}
    (h : ∀ result ∈ results, result.isInputEmpty = false) (carried : Cell)
    (rest : List ReadFieldResult) :
    joinFields carried (results ++ rest) =
      joinFields carried results ++ joinFields (carriedAfter carried results) rest := by
  induction results generalizing carried with
  | nil => rfl
  | cons result results ih =>
      have hrest := ih fun later hlater => h later (List.mem_cons_of_mem result hlater)
      cases result with
      | inputEmpty produced => exact absurd (h _ List.mem_cons_self) Bool.noConfusion
      | outputFull produced => exact hrest (carried ++ produced)
      | field produced recordEnd =>
          rw [List.cons_append, joinFields, hrest, joinFields, List.cons_append, carriedAfter]

theorem takeFields_append {results : List ReadFieldResult}
    (h : ∀ result ∈ results, result.isInputEmpty = false) (carried : Cell)
    (rest : List ReadFieldResult) :
    takeFields carried (results ++ rest) =
      joinFields carried results ++ takeFields (carriedAfter carried results) rest := by
  induction results generalizing carried with
  | nil => rfl
  | cons result results ih =>
      have hrest := ih fun later hlater => h later (List.mem_cons_of_mem result hlater)
      cases result with
      | inputEmpty produced => exact absurd (h _ List.mem_cons_self) Bool.noConfusion
      | outputFull produced => exact hrest (carried ++ produced)
      | field produced recordEnd =>
          rw [List.cons_append, takeFields, hrest, joinFields, List.cons_append, carriedAfter]

theorem takeFields_of_not_cut {reads : FieldReads} (h : reads.cut = none) :
    takeFields [] reads.results = reads.fields := by
  unfold FieldReads.fields FieldReads.results
  rw [h, List.append_nil, takeFields_eq_joinFields reads.atEndOnly]

theorem takeFields_of_cut {reads : FieldReads} {lost : Cell} (h : reads.cut = some lost) :
    takeFields [] reads.results =
        joinFields [] reads.read ++ [(carriedAfter [] reads.read, true)] ∧
      reads.fields = joinFields [] reads.read ++ [(carriedAfter [] reads.read ++ lost, true)] := by
  unfold FieldReads.fields FieldReads.results
  rw [h, takeFields_append reads.atEndOnly, joinFields_append reads.atEndOnly]
  simp [takeFields, joinFields]

/-- The decoder's fields are those of the file, but for the text that the end cuts off. -/
theorem decoder_fields_cases (csv : CsvLibrary) (bytes : List UInt8) :
    ((csv.readField (terminated bytes)).cut = none ∧
        takeFields [] (csv.readField (terminated bytes)).results = (csv.readField bytes).fields) ∨
      (csv.readField (terminated bytes)).cut ≠ none ∧ ∃ fields cell,
        takeFields [] (csv.readField (terminated bytes)).results =
            fields ++ [(carriedAfter [] (csv.readField (terminated bytes)).read, true)] ∧
          (csv.readField bytes).fields = fields ++ [(cell, true)] := by
  cases hcut : (csv.readField (terminated bytes)).cut with
  | none =>
      refine .inl ⟨rfl, ?_⟩
      rw [takeFields_of_not_cut hcut]
      unfold terminated at hcut ⊢
      split
      · rfl
      · next hbreak =>
          rw [if_neg hbreak] at hcut
          exact csv.closed bytes hcut
  | some lost =>
      refine .inr ⟨Option.some_ne_none lost, ?_⟩
      obtain ⟨htake, hfields⟩ := takeFields_of_cut hcut
      by_cases hbreak : bytes.getLast? = some lineFeed
      · rw [terminated, if_pos hbreak] at htake hfields ⊢
        exact ⟨_, _, htake, hfields⟩
      · rw [terminated, if_neg hbreak] at htake hfields hcut ⊢
        obtain ⟨fields, cell, hterminated, hbytes⟩ :=
          csv.stillOpen bytes (hcut ▸ Option.some_ne_none lost)
        obtain ⟨rfl, -⟩ := List.append_inj' (hfields.symm.trans hterminated) rfl
        exact ⟨_, cell, htake, hbytes⟩

theorem collectRecords_concat (cells : Record) (fields : List (Cell × Bool)) :
    ∃ records last, ∀ cell, collectRecords cells (fields ++ [(cell, true)]) =
      records ++ [last ++ [cell]] := by
  induction fields generalizing cells with
  | nil => exact ⟨[], cells, fun cell => rfl⟩
  | cons field fields ih =>
      obtain ⟨first, recordEnd⟩ := field
      cases recordEnd with
      | false => exact ih (cells ++ [first])
      | true =>
          obtain ⟨records, last, h⟩ := ih []
          exact ⟨(cells ++ [first]) :: records, last, fun cell => congrArg _ (h cell)⟩

theorem ne_nil_of_mem_collectRecords {cells record : Record} {fields : List (Cell × Bool)}
    (h : record ∈ collectRecords cells fields) : record ≠ [] := by
  induction fields generalizing cells with
  | nil => exact absurd h List.not_mem_nil
  | cons field fields ih =>
      obtain ⟨cell, recordEnd⟩ := field
      cases recordEnd with
      | false => exact ih h
      | true =>
          rcases List.mem_cons.mp h with rfl | h
          · simp
          · exact ih h

/-! ## The partition -/

/-- The studies of the rows that are not blank, each once. -/
def nonblankStudies (rows : List RawRow) : List String :=
  (rows.map RawRow.studyId).dedup.filter (· ≠ "")

/-- The parts are a partition of the decoded rows, numbers aside. -/
structure IsPartition (csv : CsvLibrary) (bytes : List UInt8) : Prop where
  reads : ∀ part ∈ splitRawByStudy csv bytes,
    (decodeSourceRecords csv part.2).map RawRow.unnumbered =
      ((decodeSourceRecords csv bytes).filter (·.studyId = part.1)).map RawRow.unnumbered
  covers : ∀ row ∈ decodeSourceRecords csv bytes,
    ((splitRawByStudy csv bytes).map Prod.fst).count row.studyId = 1

/-- The columns that the decoder reads into a row, besides its number. -/
def decodedColumns : List String :=
  ["event_timestamp", "timezone", "app_package_name", "interaction_type", "application_label",
    "study_id", "participant_id", "username"]

/-- No column of the decoder loses text to the end of the file: the file ends between two records,
or the field that it cuts off is in no such column, or there the text that the decoder had carried
along counts for the whole. -/
def KeepsText (csv : CsvLibrary) (bytes : List UInt8) : Prop :=
  (csv.readField (terminated bytes)).cut = none ∨
    ∀ header ∈ (collectRecords [] (csv.readField bytes).fields).head?,
      ∀ record ∈ (collectRecords [] (csv.readField bytes).fields).getLast?,
        ∀ cell ∈ record.getLast?, ∀ name ∈ decodedColumns,
          columnIndex (header.map fromUtf8Lossy) name = some (record.length - 1) →
            trim (fromUtf8Lossy (carriedAfter [] (csv.readField (terminated bytes)).read)) =
              trim (fromUtf8Lossy cell)

section Partition

variable {csv : CsvLibrary} {bytes : List UInt8} {header : Record} {records decoded : List Record}

theorem recordRow_eq_iff {first second : Record} :
    recordRow header first = recordRow header second ↔ ∀ name ∈ decodedColumns,
      columnText (header.map fromUtf8Lossy) (first.map fromUtf8Lossy) name =
        columnText (header.map fromUtf8Lossy) (second.map fromUtf8Lossy) name := by
  simp only [recordRow, RawRow.unnumbered, rawRow, RawRow.mk.injEq, decodedColumns,
    List.forall_mem_cons, true_and]
  simp only [List.not_mem_nil, false_implies, implies_true, and_true]

/-- Records that differ in their last cell are the same row exactly when no column of the decoder
sees the difference. -/
theorem recordRow_concat_eq_iff {cells : Record} {first second : Cell} :
    recordRow header (cells ++ [first]) = recordRow header (cells ++ [second]) ↔
      ∀ name ∈ decodedColumns, columnIndex (header.map fromUtf8Lossy) name = some cells.length →
        trim (fromUtf8Lossy first) = trim (fromUtf8Lossy second) := by
  rw [recordRow_eq_iff]
  refine forall₂_congr fun name _ => ?_
  unfold columnText
  cases hindex : columnIndex (header.map fromUtf8Lossy) name with
  | none => simp
  | some index =>
      by_cases hlast : index = cells.length
      · simp [hlast]
      · have hother : ∀ cell : Cell, (cells ++ [cell])[index]? = cells[index]? := by
          intro cell
          rcases Nat.lt_or_gt_of_ne hlast with hlt | hgt
          · exact List.getElem?_append_left hlt
          · rw [List.getElem?_eq_none (by simp; omega), List.getElem?_eq_none (by omega)]
        simp only [Option.bind_some, List.getElem?_map, hother, Option.some.injEq, hlast,
          false_implies]

theorem unnumbered_tableRows (header : Record) (records : List Record) :
    (tableRows (header :: records)).map RawRow.unnumbered = records.map (recordRow header) :=
  unnumbered_rowsFrom header 1 records

/-- A part is decoded into the rows of its records. -/
theorem decode_written (hheader : header ≠ []) (hrecords : ∀ record ∈ records, record ≠ []) :
    (decodeSourceRecords csv (csv.writeByteRecords (header :: records))).map RawRow.unnumbered =
      records.map (recordRow header) := by
  obtain ⟨hread, hcut, hbreak⟩ := csv.written (header :: records)
    (List.forall_mem_cons.mpr ⟨hheader, hrecords⟩)
  have hterminated : terminated (csv.writeByteRecords (header :: records)) =
      csv.writeByteRecords (header :: records) := if_pos (hbreak (List.cons_ne_nil _ _))
  rw [decodeSourceRecords_eq, hterminated, takeFields_of_not_cut hcut, hread,
    unnumbered_tableRows]

theorem map_filter_recordRow (study : String) :
    (records.filter fun record => (recordRow header record).studyId = study).map
        (recordRow header) =
      (records.map (recordRow header)).filter (·.studyId = study) := by
  rw [List.filter_map]
  simp only [Function.comp_def]

theorem unnumbered_filter (rows : List RawRow) (study : String) :
    (rows.filter (·.studyId = study)).map RawRow.unnumbered =
      (rows.map RawRow.unnumbered).filter (·.studyId = study) := by
  rw [List.filter_map]
  rfl

/-- The partition, in terms of the records of the file and those of the decoder. -/
theorem isPartition_iff_records
    (htable : collectRecords [] (csv.readField bytes).fields = header :: records)
    (hdecoded : (decodeSourceRecords csv bytes).map RawRow.unnumbered =
      decoded.map (recordRow header)) :
    IsPartition csv bytes ↔
      (∀ study ∈ rawStudyIdsToSplit csv bytes,
        (records.map (recordRow header)).filter (·.studyId = study) =
          (decoded.map (recordRow header)).filter (·.studyId = study)) ∧
      ∀ record ∈ decoded,
        (rawStudyIdsToSplit csv bytes).count (recordRow header record).studyId = 1 := by
  have hnonempty : ∀ record ∈ header :: records, record ≠ [] := fun record hrecord =>
    ne_nil_of_mem_collectRecords (htable ▸ hrecord)
  obtain ⟨hheader, hrecords⟩ := List.forall_mem_cons.mp hnonempty
  -- a part is read back as the rows of its study
  have hpart : ∀ study, (decodeSourceRecords csv (csv.writeByteRecords (header ::
      records.filter fun record => (recordRow header record).studyId = study))).map
        RawRow.unnumbered = (records.map (recordRow header)).filter (·.studyId = study) := by
    intro study
    rw [decode_written hheader fun record hrecord => hrecords record (List.mem_of_mem_filter hrecord),
      map_filter_recordRow]
  have hstudies : (splitRawByStudy csv bytes).map Prod.fst = rawStudyIdsToSplit csv bytes := by
    rw [splitRawByStudy_eq htable, List.map_map]
    exact List.map_id _
  constructor
  · intro h
    refine ⟨fun study hstudy => ?_, fun record hrecord => ?_⟩
    · have hreads := h.reads _ (splitRawByStudy_eq htable ▸ List.mem_map_of_mem hstudy)
      rwa [hpart, unnumbered_filter, hdecoded] at hreads
    · have hmem : recordRow header record ∈
          (decodeSourceRecords csv bytes).map RawRow.unnumbered :=
        hdecoded ▸ List.mem_map_of_mem hrecord
      obtain ⟨row, hrow, heq⟩ := List.mem_map.mp hmem
      rw [← hstudies, ← heq]
      exact h.covers row hrow
  · rintro ⟨hreads, hcovers⟩
    constructor
    · intro part hmem
      rw [splitRawByStudy_eq htable] at hmem
      obtain ⟨study, hstudy, rfl⟩ := List.mem_map.mp hmem
      rw [hpart, unnumbered_filter, hdecoded]
      exact hreads study hstudy
    · intro row hrow
      have hmem : row.unnumbered ∈ decoded.map (recordRow header) :=
        hdecoded ▸ List.mem_map_of_mem hrow
      obtain ⟨record, hrecord, heq⟩ := List.mem_map.mp hmem
      rw [hstudies, ← unnumbered_studyId row, ← heq]
      exact hcovers record hrecord

theorem nodup_studiesOf (header : Record) (records : List Record) :
    (studiesOf header records).Nodup :=
  (StableSort.perm_sortByKey id _).nodup_iff.mpr (List.nodup_dedup _)

theorem mem_studiesOf {record : Record} (h : record ∈ records) :
    (recordRow header record).studyId ∈ studiesOf header records :=
  StableSort.mem_sortByKey.mpr (List.mem_dedup.mpr (List.mem_map_of_mem h))

/-- The parts are those of the studies of the records, if enough of these are not blank. -/
theorem rawStudyIdsToSplit_of_nonblank
    (htable : collectRecords [] (csv.readField bytes).fields = header :: records)
    (hdecoded : (decodeSourceRecords csv bytes).map RawRow.unnumbered =
      records.map (recordRow header))
    (hstudies : 2 ≤ (nonblankStudies (decodeSourceRecords csv bytes)).length) :
    rawStudyIdsToSplit csv bytes = studiesOf header records := by
  rw [rawStudyIdsToSplit_eq htable]
  refine if_neg (Nat.not_lt.mpr (hstudies.trans_eq ?_))
  have hrows : (decodeSourceRecords csv bytes).map RawRow.studyId =
      records.map fun record => (recordRow header record).studyId := by
    have h := congrArg (List.map RawRow.studyId) hdecoded
    rw [List.map_map, List.map_map] at h
    exact h
  unfold nonblankStudies studiesOf
  rw [hrows]
  exact ((StableSort.perm_sortByKey id _).filter _).length_eq.symm

/-- If the decoder's records are those of the file, the split is a partition. -/
theorem isPartition_of_agreement
    (htable : collectRecords [] (csv.readField bytes).fields = header :: records)
    (hdecoded : (decodeSourceRecords csv bytes).map RawRow.unnumbered =
      records.map (recordRow header))
    (hstudies : 2 ≤ (nonblankStudies (decodeSourceRecords csv bytes)).length) :
    IsPartition csv bytes := by
  refine (isPartition_iff_records htable hdecoded).mpr ⟨fun _ _ => rfl, fun record hrecord => ?_⟩
  rw [rawStudyIdsToSplit_of_nonblank htable hdecoded hstudies]
  exact List.count_eq_one_of_mem (nodup_studiesOf header records) (mem_studiesOf hrecord)

/-- A partition leaves no difference between the last records of the file and of the decoder. -/
theorem recordRow_eq_of_isPartition {first : List Record} {last kept : Record}
    (htable : collectRecords [] (csv.readField bytes).fields = header :: (first ++ [last]))
    (hdecoded : (decodeSourceRecords csv bytes).map RawRow.unnumbered =
      (first ++ [kept]).map (recordRow header)) (h : IsPartition csv bytes) :
    recordRow header kept = recordRow header last := by
  obtain ⟨hreads, hcovers⟩ := (isPartition_iff_records htable hdecoded).mp h
  have hsplit : rawStudyIdsToSplit csv bytes = studiesOf header (first ++ [last]) := by
    have hmem := List.count_pos_iff.mp
      (Nat.lt_of_lt_of_eq Nat.one_pos (hcovers kept (by simp)).symm)
    rw [rawStudyIdsToSplit_eq htable] at hmem ⊢
    split at hmem
    · exact absurd hmem List.not_mem_nil
    · next henough => exact if_neg henough
  have hlast := hreads (recordRow header last).studyId
    (hsplit ▸ mem_studiesOf (List.mem_append_right first (List.mem_singleton_self last)))
  rw [List.map_append, List.map_append, List.filter_append, List.filter_append] at hlast
  have htails := List.append_cancel_left hlast
  by_cases hstudy : (recordRow header kept).studyId = (recordRow header last).studyId
  · simpa [hstudy] using htails.symm
  · simp [hstudy] at htails

end Partition

/-- The split of a file with at least two studies that are not blank is a partition of its decode
exactly when no column of the decoder loses text to the end of the file. -/
theorem split_raw_by_study_partitions_iff (csv : CsvLibrary) (bytes : List UInt8)
    (hstudies : 2 ≤ (nonblankStudies (decodeSourceRecords csv bytes)).length) :
    IsPartition csv bytes ↔ KeepsText csv bytes := by
  have hrows := decodeSourceRecords_eq csv bytes
  rcases decoder_fields_cases csv bytes with ⟨hcut, hfields⟩ | ⟨hcut, fields, cell, htake, hfields⟩
  · -- the file ends between two records, so nothing is carried over
    refine iff_of_true ?_ (.inl hcut)
    rw [hfields] at hrows
    cases htable : collectRecords [] (csv.readField bytes).fields with
    | nil =>
        rw [hrows, htable] at hstudies
        exact absurd hstudies (by decide)
    | cons header records =>
        rw [htable] at hrows
        exact isPartition_of_agreement htable (hrows ▸ unnumbered_tableRows header records) hstudies
  · obtain ⟨table, last, htable⟩ := collectRecords_concat [] fields
    rw [htake, htable] at hrows
    cases table with
    | nil =>
        rw [hrows] at hstudies
        exact absurd hstudies (by simp [tableRows, rowsFrom, nonblankStudies])
    | cons header first =>
        have hdecoded : (decodeSourceRecords csv bytes).map RawRow.unnumbered =
            (first ++ [last ++ [carriedAfter [] (csv.readField (terminated bytes)).read]]).map
              (recordRow header) := by
          rw [hrows]
          exact unnumbered_tableRows header _
        have hfile : collectRecords [] (csv.readField bytes).fields =
            header :: (first ++ [last ++ [cell]]) := by rw [hfields, htable]; rfl
        -- only the last record can differ, by the text of the field that the file ends in
        have hkeeps : KeepsText csv bytes ↔
            recordRow header (last ++ [carriedAfter [] (csv.readField (terminated bytes)).read]) =
              recordRow header (last ++ [cell]) := by
          have hlast : (header :: (first ++ [last ++ [cell]])).getLast? =
              some (last ++ [cell]) := by
            rw [← List.cons_append, List.getLast?_concat]
          rw [recordRow_concat_eq_iff, KeepsText, hfile, or_iff_right hcut, hlast]
          simp
        rw [hkeeps]
        constructor
        · exact recordRow_eq_of_isPartition hfile hdecoded
        · intro hsame
          refine isPartition_of_agreement hfile ?_ hstudies
          rw [hdecoded, List.map_append, List.map_append, List.map_singleton, List.map_singleton,
            hsame]

/-! ## A library -/

/-- What `read_field` reports of a text when its buffer never fills. -/
def plainReads (bytes : List UInt8) : FieldReads where
  read := (Csv.read bytes).finished.map fun field => .field field.1 field.2
  cut := (Csv.read bytes).cut
  atEndOnly := by
    intro result hresult
    obtain ⟨field, -, rfl⟩ := List.mem_map.mp hresult
    rfl

theorem joinFields_finished (finished : List (Cell × Bool)) (rest : List ReadFieldResult) :
    joinFields [] (finished.map (fun field => .field field.1 field.2) ++ rest) =
      finished ++ joinFields [] rest := by
  induction finished with
  | nil => rfl
  | cons field finished ih => rw [List.map_cons, List.cons_append, joinFields, ih]; rfl

theorem plainReads_fields (bytes : List UInt8) : (plainReads bytes).fields = (Csv.read bytes).cells := by
  unfold FieldReads.fields FieldReads.results plainReads Reading.cells
  rw [joinFields_finished]
  cases (Csv.read bytes).cut with
  | none => rfl
  | some produced => simp [joinFields]

theorem read_concat (bytes : List UInt8) (byte : UInt8) :
    Csv.read (bytes ++ [byte]) = (Csv.read bytes).push byte := by
  rw [Csv.read, List.foldl_append]
  rfl

theorem getLast?_writeCells (record : Record) : (writeCells record).getLast? = some lineFeed := by
  induction record with
  | nil => rfl
  | cons cell record ih =>
      cases record with
      | nil => rw [writeCells, List.getLast?_concat]
      | cons next record =>
          have hcells : writeCells (cell :: next :: record) =
              writeCell cell ++ comma :: writeCells (next :: record) := rfl
          rw [hcells, List.getLast?_append, List.getLast?_cons, ih]
          rfl

theorem getLast?_write {records : List Record} (h : records ≠ []) :
    (write records).getLast? = some lineFeed := by
  induction records with
  | nil => exact absurd rfl h
  | cons record records ih =>
      rw [write, List.flatMap_cons, ← write, List.getLast?_append]
      by_cases hlast : records = []
      · subst hlast
        have hrecord : (writeRecord record).getLast? = some lineFeed := by
          unfold writeRecord
          split
          · rfl
          · exact getLast?_writeCells record
        rw [hrecord]
        rfl
      · rw [ih hlast]
        rfl

/-- The reading and the writing of comma-separated records are such a library. -/
def plainCsv : CsvLibrary where
  readField := plainReads
  byteRecords := fun bytes => .ok (collectRecords [] (plainReads bytes).fields)
  writeByteRecords := write
  byteRecords_eq := fun _ => rfl
  closed := by
    intro bytes hcut
    rw [plainReads_fields, plainReads_fields, read_concat]
    refine (cells_push_lineFeed fun hquotes => ?_).2
    simp [plainReads, read_concat, push_lineFeed_inQuotes hquotes, Reading.cut] at hcut
  stillOpen := by
    intro bytes hcut
    have hquotes : (Csv.read bytes).state = .inQuotes := by
      by_contra hquotes
      refine hcut (Eq.trans ?_ (cells_push_lineFeed hquotes).1)
      rw [← read_concat]
      rfl
    refine ⟨(Csv.read bytes).finished, (Csv.read bytes).cell, ?_, ?_⟩
    · rw [plainReads_fields, read_concat, push_lineFeed_inQuotes hquotes]
      rfl
    · rw [plainReads_fields]
      simp [Reading.cells, Reading.cut, hquotes]
  written := by
    intro records hrecords
    have hread := read_write hrecords
    refine ⟨?_, ?_, getLast?_write⟩
    · rw [plainReads_fields, hread]
      simpa [Reading.cells, Reading.cut] using collectRecords_flatMap_markLast hrecords
    · simp [plainReads, hread, Reading.cut]

/-- The bytes of a text in ASCII. -/
def ascii (text : String) : List UInt8 := text.toList.map fun c => UInt8.ofNat c.toNat

/-- Three records, the last of which ends the file within quotes. -/
def cutFile : List UInt8 := ascii "username,study_id\nu,A\nv,B\nw,\"A"

/-- The last record is in the part of a study that the decoder does not see there. -/
theorem cut_file_not_partitioned :
    2 ≤ (nonblankStudies (decodeSourceRecords plainCsv cutFile)).length ∧
      ¬ IsPartition plainCsv cutFile := by
  refine ⟨by decide +kernel, fun h => ?_⟩
  have hmissing : (decodeSourceRecords plainCsv cutFile).any (fun row =>
      ((splitRawByStudy plainCsv cutFile).map Prod.fst).count row.studyId = 0) = true := by
    decide +kernel
  obtain ⟨row, hrow, hcount⟩ := List.any_eq_true.mp hmissing
  exact absurd ((h.covers row hrow).symm.trans (of_decide_eq_true hcount)) Nat.one_ne_zero

/-- The equivalence at the file with its quotes closed. -/
theorem closed_file_partitioned_iff :
    IsPartition plainCsv (cutFile ++ ascii "\"") ↔ KeepsText plainCsv (cutFile ++ ascii "\"") :=
  split_raw_by_study_partitions_iff plainCsv (cutFile ++ ascii "\"") (by decide +kernel)

end Chronicle.Source
