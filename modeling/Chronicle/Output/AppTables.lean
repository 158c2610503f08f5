import Chronicle.Output.AppColumns

/-!
# The app table

No two columns of the header have one name, and every name a column adds is one of the kernel's own.
So the table that is written reads back as its header and one record for each row, with the field of
each column under its name.
-/

namespace Chronicle.Output

open Chronicle.Checkpoint Chronicle.Library Chronicle.Library.Bytes Chronicle.Library.Rfc4180
open Chronicle.Persistence Chronicle.Pipeline Chronicle.Screens

/-! ## Distinct names -/

section Names

variable {texts : Texts} {opts : AppCsvOptions} {codebook : Option CodebookSchema}
  {includeAliases : Bool}

theorem FixedColumn.mem_all (column : FixedColumn) : column ∈ FixedColumn.all := by
  cases column <;> decide

theorem FixedColumn.name_injective : Function.Injective FixedColumn.name := by
  have hnodup : (FixedColumn.all.map FixedColumn.name).Nodup := by decide +kernel
  intro a b h
  exact List.inj_on_of_nodup_map hnodup (mem_all a) (mem_all b) h

/-- The names in which a duration stands. -/
def customName (stem dur : String) : String := stem ++ dur ++ "s"

def validStem : String := "valid_app_new_engage_custom_"

def anyStem : String := "any_app_new_engage_custom_"

theorem FixedColumn.not_custom (column : FixedColumn) :
    validStem.toList.isPrefixOf column.name.toList = false ∧
      anyStem.toList.isPrefixOf column.name.toList = false := by
  have hall : ∀ column ∈ FixedColumn.all, validStem.toList.isPrefixOf column.name.toList = false ∧
      anyStem.toList.isPrefixOf column.name.toList = false := by decide +kernel
  exact hall column (mem_all column)

theorem FixedColumn.isKernel (column : FixedColumn) :
    isKernelAppOutputColumn texts column.name = true := by
  have hall : ∀ column ∈ FixedColumn.all, column.name ∈ everyAppColumn "NaN" ∧
      splitOnce "NaN".toList column.name.toList = none := by decide +kernel
  obtain ⟨hmem, hsplit⟩ := hall column (mem_all column)
  rw [isKernelAppOutputColumn, texts.jsNumberToString_nan, List.any_eq_true]
  refine ⟨column.name, hmem, ?_⟩
  rw [matchesColumn, hsplit]
  exact beq_self_eq_true _

theorem isPrefixOf_customName (stem dur : String) :
    stem.toList.isPrefixOf (customName stem dur).toList = true := by
  rw [List.isPrefixOf_iff_prefix, customName, String.toList_append, String.toList_append,
    List.append_assoc]
  exact List.prefix_append _ _

/-- A name with any duration in it is a name of the kernel. -/
theorem customName_isKernel {stem dur : String} (hdur : dur ≠ "")
    (hmem : customName stem "NaN" ∈ everyAppColumn "NaN")
    (hsplit : splitOnce "NaN".toList (customName stem "NaN").toList = some (stem.toList, ['s'])) :
    isKernelAppOutputColumn texts (customName stem dur) = true := by
  rw [isKernelAppOutputColumn, texts.jsNumberToString_nan, List.any_eq_true]
  refine ⟨_, hmem, ?_⟩
  have hsize : (customName stem dur).utf8ByteSize = stem.utf8ByteSize + dur.utf8ByteSize + 1 := by
    rw [customName, String.utf8ByteSize_append, String.utf8ByteSize_append]
    rfl
  have hpos : 0 < dur.utf8ByteSize :=
    Nat.pos_of_ne_zero (String.utf8ByteSize_eq_zero_iff.not.mpr hdur)
  have hends : ['s'].isSuffixOf (customName stem dur).toList = true := by
    rw [List.isSuffixOf_iff_suffix, customName, String.toList_append]
    exact List.suffix_append _ _
  have hstem : (String.ofList stem.toList).utf8ByteSize = stem.utf8ByteSize := by
    rw [String.ofList_toList]
  have hlast : (String.ofList ['s']).utf8ByteSize = 1 := rfl
  simp only [matchesColumn, hsplit, hstem, hlast, hsize, hends, isPrefixOf_customName,
    Bool.and_true, decide_eq_true_eq]
  omega

/-- The column is one of the kernel's, or one that the codebook has. -/
def AppColumn.Within (codebook : Option CodebookSchema) : AppColumn → Prop
  | .codebook index => index < (codebook.elim [] CodebookSchema.outputColumns).length
  | _ => True

theorem AppColumn.name_codebook {index : Nat} (dur : String)
    (h : (AppColumn.codebook index).Within codebook) :
    (AppColumn.codebook index).name dur codebook =
      (codebook.elim [] CodebookSchema.outputColumns).get ⟨index, h⟩ := by
  show (codebook.elim [] CodebookSchema.outputColumns).getD index "" = _
  rw [List.getD_eq_getElem?_getD, List.getElem?_eq_getElem h, Option.getD_some]
  rfl

/-- A column that is not a codebook's has a name of the kernel. -/
theorem AppColumn.isKernel {dur : String} (hdur : dur ≠ "") {column : AppColumn}
    (hcolumn : ∀ index, column ≠ .codebook index) :
    isKernelAppOutputColumn texts (column.name dur codebook) = true := by
  cases column with
  | fixed column => exact column.isKernel
  | validAppNewEngageCustom =>
      exact customName_isKernel hdur (by decide +kernel) (by decide +kernel)
  | anyAppNewEngageCustom =>
      exact customName_isKernel hdur (by decide +kernel) (by decide +kernel)
  | codebook index => exact absurd rfl (hcolumn index)

theorem customName_ne_fixed {stem dur : String} {column : FixedColumn}
    (h : stem.toList.isPrefixOf column.name.toList = false) :
    customName stem dur ≠ column.name := by
  intro heq
  rw [← heq, isPrefixOf_customName] at h
  cases h

theorem customName_valid_ne_any (dur dur' : String) :
    customName validStem dur ≠ customName anyStem dur' := by
  intro heq
  have hprefix := isPrefixOf_customName validStem dur
  rw [heq, customName, String.append_assoc, String.toList_append] at hprefix
  cases hprefix

/-- Two columns of one name are one column, whatever durations are in the names. -/
theorem AppColumn.name_injective {dur dur' : String} (hdur : dur ≠ "") (hdur' : dur' ≠ "")
    (hdistinct : (codebook.elim [] CodebookSchema.outputColumns).Nodup)
    (hkernel : ∀ name ∈ codebook.elim [] CodebookSchema.outputColumns,
      isKernelAppOutputColumn texts name = false)
    {a b : AppColumn} (ha : a.Within codebook) (hb : b.Within codebook)
    (h : a.name dur codebook = b.name dur' codebook) : a = b := by
  -- no codebook column has the name of a column that the kernel writes
  have hof : ∀ {dur : String} {index : Nat} {other : AppColumn}, dur ≠ "" →
      (AppColumn.codebook index).Within codebook → (∀ i, other ≠ .codebook i) →
      ∀ dur', (AppColumn.codebook index).name dur' codebook ≠ other.name dur codebook := by
    intro dur index other hdur hwithin hother dur' heq
    have hname := hkernel _ (List.get_mem _ ⟨index, hwithin⟩)
    rw [← AppColumn.name_codebook dur' hwithin, heq, AppColumn.isKernel hdur hother] at hname
    cases hname
  cases a with
  | codebook i =>
      cases b with
      | codebook j =>
          rw [AppColumn.name_codebook dur ha, AppColumn.name_codebook dur' hb] at h
          have hsame := List.nodup_iff_injective_get.mp hdistinct h
          exact congrArg (fun k => AppColumn.codebook k.val) hsame
      | _ => exact absurd h (hof hdur' ha (by intro _ heq; cases heq) dur)
  | fixed a =>
      cases b with
      | codebook j => exact absurd h.symm (hof hdur hb (by intro _ heq; cases heq) dur')
      | fixed b => exact congrArg AppColumn.fixed (FixedColumn.name_injective h)
      | validAppNewEngageCustom => exact absurd h.symm (customName_ne_fixed a.not_custom.1)
      | anyAppNewEngageCustom => exact absurd h.symm (customName_ne_fixed a.not_custom.2)
  | validAppNewEngageCustom =>
      cases b with
      | codebook j => exact absurd h.symm (hof hdur hb (by intro _ heq; cases heq) dur')
      | fixed b => exact absurd h (customName_ne_fixed b.not_custom.1)
      | validAppNewEngageCustom => rfl
      | anyAppNewEngageCustom => exact absurd h (customName_valid_ne_any dur dur')
  | anyAppNewEngageCustom =>
      cases b with
      | codebook j => exact absurd h.symm (hof hdur hb (by intro _ heq; cases heq) dur')
      | fixed b => exact absurd h (customName_ne_fixed b.not_custom.2)
      | validAppNewEngageCustom => exact absurd h.symm (customName_valid_ne_any dur' dur)
      | anyAppNewEngageCustom => rfl

/-! ## Columns that stand once -/

instance (codebook : Option CodebookSchema) : DecidablePred (AppColumn.Within codebook)
  | .codebook index =>
      inferInstanceAs (Decidable (index < (codebook.elim [] CodebookSchema.outputColumns).length))
  | .fixed _ => isTrue trivial
  | .validAppNewEngageCustom => isTrue trivial
  | .anyAppNewEngageCustom => isTrue trivial

/-- The columns before a codebook's own. -/
def columnsBefore : List AppColumn :=
  identityColumns.map .fixed ++ [.fixed .genreIdScraped, .fixed .broadAppCategory]

/-- The interval columns with every selection on. -/
def everyInterval : List FixedColumn :=
  [.interactionType, .startTimestamp, .stopTimestamp, .screenIntervalId, .schoedelCompletion,
    .appUsageEndReason, .usageSessionId, .durationSeconds, .durationMinutes]

def everyFoundational : List FixedColumn :=
  [.microUseClassification, .rawEpisodeDurationSeconds, .minimumDurationQualified,
    .minimumDurationAggregateEligible, .maximumDurationQualified, .maximumDurationAggregateEligible,
    .maximumDurationTrimmedSeconds, .effectiveEndpointReason]

def everyFlag : List AppColumn :=
  [.fixed .anyAppUsageFlags, .fixed .dataTimeGapHours, .fixed .day, .fixed .weekdayMf,
    .fixed .weekdayMth, .fixed .weekdaySuTh, .fixed .hour, .fixed .quarter,
    .fixed .validAppNewEngage30s, .validAppNewEngageCustom, .fixed .validAppSwitchedApp,
    .fixed .validAppUsageTimeGapHours, .fixed .anyAppNewEngage30s, .anyAppNewEngageCustom,
    .fixed .anyAppSwitchedApp, .fixed .anyAppUsageTimeGapHours, .fixed .preprocessorVersion,
    .fixed .datetimeOfPreprocessing, .fixed .usageLayer]

/-- The columns after a codebook's own, with every selection on. -/
def columnsAfter : List AppColumn :=
  (everyInterval ++ everyFoundational).map .fixed ++ everyFlag

/-- The columns of a codebook. -/
def columnsWithin (codebook : Option CodebookSchema) : List AppColumn :=
  (List.range (codebook.elim [] CodebookSchema.outputColumns).length).map .codebook

theorem mem_columnsWithin {column : AppColumn} (h : column ∈ columnsWithin codebook) :
    column.Within codebook ∧ ¬column.Within none := by
  obtain ⟨index, hindex, rfl⟩ := List.mem_map.mp h
  exact ⟨List.mem_range.mp hindex, Nat.not_lt_zero index⟩

/-- The columns of a table are some of these, in this order. -/
theorem appColumns_sublist : List.Sublist (appColumns opts includeAliases codebook)
    (columnsBefore ++ (columnsWithin codebook ++ columnsAfter)) := by
  have hcodebook : List.Sublist (codebookColumns includeAliases codebook)
      ([.fixed .genreIdScraped, .fixed .broadAppCategory] ++ columnsWithin codebook) := by
    cases codebook with
    | none => exact List.nil_sublist _
    | some codebook =>
        have hwithin : (List.range codebook.columns.length).map AppColumn.codebook =
            columnsWithin (some codebook) := by
          rw [columnsWithin, Option.elim_some, CodebookSchema.outputColumns, List.length_map]
        simp only [codebookColumns, hwithin]
        refine List.Sublist.cons_cons _ ?_
        cases includeAliases with
        | false => exact List.sublist_cons_self _ _
        | true => exact List.Sublist.refl _
  have hinterval : List.Sublist (intervalColumns opts) everyInterval := by
    unfold intervalColumns
    cases opts.schoedelIsActive <;> cases opts.includeAppUsageEndReason <;>
      cases opts.includeUsageSessionId <;> decide
  have hfoundational : List.Sublist (foundationalColumns opts) everyFoundational := by
    unfold foundationalColumns
    cases opts.microUseActive <;> cases opts.b04Columns <;>
      cases opts.maximumDurationColumns <;> decide
  have hflags : List.Sublist (flagColumns opts) everyFlag := by
    unfold flagColumns
    cases opts.usageLayerActive <;> decide
  have hlater := ((hinterval.append hfoundational).map AppColumn.fixed).append hflags
  have hall := (List.Sublist.refl (identityColumns.map AppColumn.fixed)).append
    (hcodebook.append hlater)
  simpa only [appColumns, columnsBefore, columnsAfter, List.append_assoc] using hall

theorem nodup_columns :
    (columnsBefore ++ (columnsWithin codebook ++ columnsAfter)).Nodup := by
  have hbefore : columnsBefore.Nodup ∧ ∀ column ∈ columnsBefore, column.Within none := by decide
  have hafter : columnsAfter.Nodup ∧ ∀ column ∈ columnsAfter, column.Within none := by decide
  have hapart : ∀ a ∈ columnsBefore, ∀ b ∈ columnsAfter, a ≠ b := by decide
  have hwithin : (columnsWithin codebook).Nodup :=
    List.nodup_range.map fun _ _ h => AppColumn.codebook.inj h
  refine List.nodup_append.mpr ⟨hbefore.1, List.nodup_append.mpr ⟨hwithin, hafter.1, ?_⟩, ?_⟩
  · rintro a ha b hb rfl
    exact (mem_columnsWithin ha).2 (hafter.2 a hb)
  · rintro a ha b hb rfl
    rcases List.mem_append.mp hb with hb | hb
    · exact (mem_columnsWithin hb).2 (hbefore.2 a ha)
    · exact hapart a ha a hb rfl

theorem AppColumn.within_of_none {column : AppColumn} (h : column.Within none) :
    column.Within codebook := by
  cases column with
  | codebook index => exact absurd h (Nat.not_lt_zero index)
  | _ => trivial

theorem within_of_mem_appColumns {column : AppColumn}
    (h : column ∈ appColumns opts includeAliases codebook) : column.Within codebook := by
  have hbefore : ∀ column ∈ columnsBefore, column.Within none := by decide
  have hafter : ∀ column ∈ columnsAfter, column.Within none := by decide
  rcases List.mem_append.mp (appColumns_sublist.subset h) with hmem | hmem
  · exact AppColumn.within_of_none (hbefore column hmem)
  · rcases List.mem_append.mp hmem with hmem | hmem
    · exact (mem_columnsWithin hmem).1
    · exact AppColumn.within_of_none (hafter column hmem)

theorem nodup_appColumns : (appColumns opts includeAliases codebook).Nodup :=
  nodup_columns.sublist appColumns_sublist

/-- The names of a table's columns do not depend on a codebook that it does not use. -/
theorem name_of_mem_appColumns_none {dur : String} {column : AppColumn}
    (h : column ∈ appColumns opts includeAliases none) :
    column.name dur none = column.name dur codebook := by
  cases column with
  | codebook index => exact absurd (within_of_mem_appColumns h) (Nat.not_lt_zero index)
  | _ => rfl

end Names

/-! ## The table -/

section Table

variable {texts : Texts}

/-- The codebook that a request uses. -/
def AppCsvOptions.codebook (opts : AppCsvOptions) (codebook : Option CodebookSchema) :
    Option CodebookSchema :=
  if opts.useAppCodebook then codebook else none

/-- The names of the columns of a request. -/
def columnNames (texts : Texts) (opts : AppCsvOptions) (includeAliases : Bool)
    (codebook : Option CodebookSchema) : List String :=
  (appColumns opts includeAliases (opts.codebook codebook)).map (AppColumn.name
    (texts.jsNumberToString opts.customAppEngagementDuration) (opts.codebook codebook))

/-- The fields of a row under the columns of a request. -/
def columnFields (texts : Texts) (opts : AppCsvOptions) (includeAliases : Bool)
    (codebook : Option CodebookSchema) (row : RowData) : List (List UInt8) :=
  (appColumns opts includeAliases (opts.codebook codebook)).map
    (AppColumn.value texts opts (rowZone texts opts row) row)

theorem appCsvCodebook_eq_ok {opts : AppCsvOptions} {codebook used : Option CodebookSchema}
    (h : appCsvCodebook opts codebook = .ok used) : used = opts.codebook codebook := by
  unfold appCsvCodebook at h
  unfold AppCsvOptions.codebook
  split at h
  · cases h
  · rename_i huse _
    rw [if_pos huse]
    exact (Except.ok.inj h).symm
  · rename_i huse
    rw [huse, if_neg Bool.false_ne_true]
    exact (Except.ok.inj h).symm

/-- A line after what is written already. -/
theorem append_appRowLine (opts : AppCsvOptions) (includeAliases : Bool)
    (codebook : Option CodebookSchema) (row : RowData) (sink : List UInt8) :
    sink ++ appRowLine texts opts includeAliases (opts.codebook codebook) row =
      writeFields sink (columnFields texts opts includeAliases codebook row) ++
        Ending.text csvBytes .lf := by
  rw [appRowLine_eq, writeFields_eq, writeFields_eq sink, List.nil_append, List.append_assoc]
  rfl

/-- The table that is written: its header has the names of the columns, and its rows their
fields. -/
theorem parseTable_writeAppCsvTo {opts : AppCsvOptions} {includeAliases : Bool}
    {codebook : Option CodebookSchema} {rows : List RowData} {output : List UInt8}
    (hheader : buildAppColumns texts opts includeAliases (opts.codebook codebook) =
      columnNames texts opts includeAliases codebook)
    (h : writeAppCsvTo texts opts includeAliases codebook rows = .ok output) :
    parseTable output = some ((columnNames texts opts includeAliases codebook).map utf8 ::
      rows.map (columnFields texts opts includeAliases codebook)) := by
  have hcolumns : appColumns opts includeAliases (opts.codebook codebook) ≠ [] := by
    simp [appColumns, identityColumns]
  have hnames : (columnNames texts opts includeAliases codebook).map utf8 ≠ [] := by
    rw [columnNames]
    simpa using hcolumns
  have hfields : ∀ row, columnFields texts opts includeAliases codebook row ≠ [] := by
    intro row
    rw [columnFields]
    simpa using hcolumns
  obtain ⟨used, hused, hrows⟩ := Stages.bind_eq_ok.mp h
  obtain rfl := appCsvCodebook_eq_ok hused
  have hout : ((columnNames texts opts includeAliases codebook).foldl emit ⟨[], true⟩).out =
      writeFields [] ((columnNames texts opts includeAliases codebook).map utf8) := by
    rw [← out_foldl_emitField hnames, List.foldl_map]
    rfl
  simp only [hheader, hout] at hrows
  have htable : output = writeTable (⟨_, .lf, hnames⟩ ::
      rows.map fun row => ⟨_, .lf, hfields row⟩) := by
    rw [← Except.ok.inj hrows, writeTable, List.foldl_cons, List.foldl_map]
    simp only [append_appRowLine]
    rfl
  rw [htable, parseTable_writeTable, List.map_cons, List.map_map]
  rfl

/-- Whatever a request selects and whatever rows there are: the names of the header are distinct,
each row has one field for each of them, and a name stands for the same field of a row in the table
of any other request. -/
theorem writeAppCsvTo_columns (texts : Texts) (opts : AppCsvOptions) (includeAliases : Bool)
    (codebook : Option CodebookSchema)
    (hdistinct : ∀ schema, codebook = some schema → schema.outputColumns.Nodup)
    (hkernel : ∀ schema, codebook = some schema → ∀ name ∈ schema.outputColumns,
      isKernelAppOutputColumn texts name = false) (rows : List RowData) (output : List UInt8)
    (h : writeAppCsvTo texts opts includeAliases codebook rows = .ok output) :
    (columnNames texts opts includeAliases codebook).Nodup ∧
    parseTable output = some ((columnNames texts opts includeAliases codebook).map utf8 ::
      rows.map (columnFields texts opts includeAliases codebook)) ∧
    ∀ (opts' : AppCsvOptions) (includeAliases' : Bool) (column column' : AppColumn),
      column ∈ appColumns opts includeAliases (opts.codebook codebook) →
      column' ∈ appColumns opts' includeAliases' (opts'.codebook codebook) →
      column.name (texts.jsNumberToString opts.customAppEngagementDuration)
        (opts.codebook codebook) =
      column'.name (texts.jsNumberToString opts'.customAppEngagementDuration)
        (opts'.codebook codebook) → column = column' := by
  have hdistinct' : (codebook.elim [] CodebookSchema.outputColumns).Nodup := by
    cases codebook with
    | none => exact List.nodup_nil
    | some schema => exact hdistinct schema rfl
  have hkernel' : ∀ name ∈ codebook.elim [] CodebookSchema.outputColumns,
      isKernelAppOutputColumn texts name = false := by
    cases codebook with
    | none => exact List.forall_mem_nil _
    | some schema => exact hkernel schema rfl
  -- A request without a codebook has no column of one, so that all names are those of `codebook`.
  have hwhole : ∀ (opts : AppCsvOptions) (includeAliases : Bool) (column : AppColumn),
      column ∈ appColumns opts includeAliases (opts.codebook codebook) →
      column.Within codebook ∧ ∀ dur, column.name dur (opts.codebook codebook) =
        column.name dur codebook := by
    intro opts includeAliases column hmem
    unfold AppCsvOptions.codebook at hmem ⊢
    cases huse : opts.useAppCodebook with
    | true =>
        rw [huse] at hmem
        exact ⟨within_of_mem_appColumns hmem, fun _ => rfl⟩
    | false =>
        rw [huse] at hmem
        exact ⟨AppColumn.within_of_none (within_of_mem_appColumns hmem),
          fun _ => name_of_mem_appColumns_none hmem⟩
  have hsame : ∀ (opts opts' : AppCsvOptions) (includeAliases includeAliases' : Bool)
      (column column' : AppColumn),
      column ∈ appColumns opts includeAliases (opts.codebook codebook) →
      column' ∈ appColumns opts' includeAliases' (opts'.codebook codebook) →
      column.name (texts.jsNumberToString opts.customAppEngagementDuration)
        (opts.codebook codebook) =
      column'.name (texts.jsNumberToString opts'.customAppEngagementDuration)
        (opts'.codebook codebook) → column = column' := by
    intro opts opts' includeAliases includeAliases' column column' hmem hmem' hname
    obtain ⟨hwithin, heq⟩ := hwhole opts includeAliases column hmem
    obtain ⟨hwithin', heq'⟩ := hwhole opts' includeAliases' column' hmem'
    rw [heq, heq'] at hname
    exact AppColumn.name_injective (texts.jsNumberToString_ne_empty _)
      (texts.jsNumberToString_ne_empty _) hdistinct' hkernel' hwithin hwithin' hname
  have hspliced : ∀ column : FixedColumn,
      column.name ∉ (opts.codebook codebook).elim [] CodebookSchema.outputColumns := by
    intro column hmem
    unfold AppCsvOptions.codebook at hmem
    split at hmem
    · have hname := hkernel' column.name hmem
      rw [column.isKernel] at hname
      cases hname
    · cases hmem
  refine ⟨?_, parseTable_writeAppCsvTo
    (buildAppColumns_eq (hspliced .stopTimestamp) (hspliced .durationMinutes)) h, ?_⟩
  · exact List.Nodup.map_on (fun column hmem column' hmem' hname =>
      hsame opts opts includeAliases includeAliases column column' hmem hmem' hname)
      nodup_appColumns
  · intro opts' includeAliases' column column'
    exact hsame opts opts' includeAliases includeAliases' column column'

/-- The first instant of 1970, in UTC. -/
def epochTime : LocalTime where
  year := 1970
  month := 1
  day := 1
  hour := 0
  minute := 0
  second := 0
  offset := 0
  offsetText := "+00:00"
  date_le := by decide
  clock_le := by decide
  offset_lt := by decide
  offsetText_plain := rfl

/-- Texts of that instant, of the custom duration 30 and of no other number. -/
def epochTexts : Texts where
  Zone := Unit
  utc := ()
  zone name := if name = "UTC" then some () else none
  tsToLocal _ _ := epochTime
  normalizeFloatString _ := "30.0"
  jsNumberToString value := if value = nan then "NaN" else "30"
  ofNanoseconds _ := 0
  jsNumberToString_ne_empty value := by split <;> decide
  jsNumberToString_nan := if_pos rfl

/-- A request that adds a codebook and the columns of the research axes. -/
def codebookOptions : AppCsvOptions where
  studyName := "Study"
  timezone := "UTC"
  datetimeOfPreprocessing := "1970-01-01 00:00:00"
  useAppCodebook := true
  modelConcurrentUsage := true
  useBackgroundAppsFile := false
  customAppEngagementDuration := 0x403e000000000000
  includeAppUsageEndReason := true
  sessionGroupingPolicy := .churchFiveSeconds
  usageSessionMode := .appUsage
  episodeReconstructionStrategy := .schoedel2026AppWithinScreenProseV1
  microUseClassificationPolicy := .okoshiLt5s
  minimumDurationComparator := .inclusiveLe
  minimumDurationDisposition := .dropRow
  maximumDurationRowStage := ⟨true, some 60000000000, .dropRow⟩

/-- A codebook of one column. -/
def titleSchema : CodebookSchema := ⟨[("title", "app_title")]⟩

/-- The table of one row of the default data. -/
theorem writeAppCsvTo_columns_one : ∃ output,
    writeAppCsvTo epochTexts codebookOptions true (some titleSchema) [{}] = .ok output ∧
    (columnNames epochTexts codebookOptions true (some titleSchema)).Nodup ∧
    parseTable output =
      some [(columnNames epochTexts codebookOptions true (some titleSchema)).map utf8,
        columnFields epochTexts codebookOptions true (some titleSchema) {}] := by
  have hdistinct : ∀ schema, some titleSchema = some schema → schema.outputColumns.Nodup := by
    intro schema hschema
    obtain rfl := Option.some.inj hschema
    decide
  have hkernel : ∀ schema, some titleSchema = some schema →
      ∀ name ∈ schema.outputColumns, isKernelAppOutputColumn epochTexts name = false := by
    intro schema hschema
    obtain rfl := Option.some.inj hschema
    decide +kernel
  obtain ⟨hnames, htable, -⟩ := writeAppCsvTo_columns epochTexts codebookOptions true
    (some titleSchema) hdistinct hkernel [{}] _ rfl
  exact ⟨_, rfl, hnames, htable⟩

end Table

end Chronicle.Output
