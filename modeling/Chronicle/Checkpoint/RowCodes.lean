import Chronicle.Checkpoint.Reuse
import Chronicle.Checkpoint.RowData

/-!
# The encodings of a row determine its data

Every part of the encoding is a prefix code or a section whose tag cannot begin what follows it, so
equal encodings are of equal data.
-/

namespace Chronicle.Checkpoint

open Chronicle.Library Chronicle.Library.Bytes Chronicle.Library.PrefixCodes Chronicle.Pipeline
  Chronicle.Screens

/-! ## The codes of the columns -/

theorem selfDelimiting_i64Bytes : SelfDelimiting i64Bytes := by
  refine selfDelimiting_of_length (fun _ => length_leBytes 8 _) fun a b h => ?_
  have hbits := leBytes_inj a.toUInt64.toNat_lt b.toUInt64.toNat_lt h
  exact congrArg Int64.ofUInt64 (UInt64.toNat_inj.mp hbits)

theorem selfDelimiting_f64Bytes : SelfDelimiting f64Bytes := by
  refine selfDelimiting_of_length (fun _ => length_leBytes 8 _) fun a b h => ?_
  exact UInt64.toNat_inj.mp (leBytes_inj a.toNat_lt b.toNat_lt h)

theorem selfDelimiting_i32Bytes : SelfDelimiting i32Bytes := by
  refine selfDelimiting_of_length (fun _ => length_leBytes 4 _) fun a b h => ?_
  have hbits := leBytes_inj a.toUInt32.toNat_lt b.toUInt32.toNat_lt h
  exact congrArg Int32.ofUInt32 (UInt32.toNat_inj.mp hbits)

theorem selfDelimiting_sharedField : SelfDelimiting sharedField := by
  refine delimits_text.comap SharedString.text (fun value _ => value.fits) ?_
  intro a _ b _ htext
  cases a
  cases b
  cases htext
  rfl

theorem selfDelimiting_digestOptional {α : Type} {encode : α → List UInt8}
    (h : SelfDelimiting encode) : SelfDelimiting (digestOptional encode) := by
  intro a _ b _ s t heq
  cases a with
  | none =>
      cases b with
      | none => exact ⟨rfl, List.append_cancel_left heq⟩
      | some b => cases (List.cons.inj heq).1
  | some a =>
      cases b with
      | none => cases (List.cons.inj heq).1
      | some b =>
          obtain ⟨rfl, hrest⟩ := h.split (List.cons.inj heq).2
          exact ⟨rfl, hrest⟩

theorem boolByte_inj : ∀ a b, boolByte a = boolByte b → a = b := by decide

theorem selfDelimiting_digestOptionalBool : SelfDelimiting digestOptionalBool := by
  refine selfDelimiting_of_length (w := 2) ?_ ?_
  · intro value
    cases value <;> rfl
  · intro a b h
    cases a with
    | none => cases b <;> simp_all [digestOptionalBool]
    | some a =>
        cases b with
        | none => cases (List.cons.inj h).1
        | some b => exact congrArg some (boolByte_inj a b (List.cons.inj (List.cons.inj h).2).1)

theorem selfDelimiting_encodeLockScreenOnly : SelfDelimiting encodeLockScreenOnly := by
  refine selfDelimiting_of_length (w := 2) ?_ ?_
  · intro value
    cases value <;> rfl
  · intro a b h
    cases a <;> cases b <;> simp_all [encodeLockScreenOnly]

theorem endpointReasonByte_inj : ∀ a b, endpointReasonByte a = endpointReasonByte b → a = b
  | none, none, _ => rfl
  | some .maximumDurationTruncationBoundary, some .maximumDurationTruncationBoundary, _ => rfl

theorem selfDelimiting_encodeEpisodeTiming : SelfDelimiting encodeEpisodeTiming := by
  intro a _ b _ s t h
  simp only [encodeEpisodeTiming, List.append_assoc] at h
  have hi64 := selfDelimiting_digestOptional selfDelimiting_i64Bytes
  have hf64 := selfDelimiting_digestOptional selfDelimiting_f64Bytes
  obtain ⟨hstart, h⟩ := hi64.split h
  obtain ⟨hstop, h⟩ := hi64.split h
  obtain ⟨hseconds, h⟩ := hf64.split h
  obtain ⟨hminutes, h⟩ := hf64.split h
  obtain ⟨hrawStart, h⟩ := hi64.split h
  obtain ⟨hrawStop, h⟩ := hi64.split h
  obtain ⟨hrawDuration, h⟩ := hi64.split h
  obtain ⟨hminimum, h⟩ := selfDelimiting_digestOptionalBool.split h
  obtain ⟨hminimumFlags, h⟩ := List.append_inj h rfl
  obtain ⟨hmaximum, h⟩ := selfDelimiting_digestOptionalBool.split h
  obtain ⟨hmaximumFlags, h⟩ := List.append_inj h rfl
  obtain ⟨htrimmed, h⟩ := hi64.split h
  obtain ⟨hreason, h⟩ := List.append_inj h rfl
  obtain ⟨hactivity, h⟩ := hi64.split h
  obtain ⟨hgap, h⟩ := hf64.split h
  simp only [List.cons.injEq, and_true] at hminimumFlags hmaximumFlags hreason
  obtain ⟨heligible, hblank, hfloor, hpending⟩ := hminimumFlags
  exact ⟨RowEpisodeTiming.ext hstart hstop hseconds hminutes hrawStart hrawStop hrawDuration hminimum
    (boolByte_inj _ _ heligible) (boolByte_inj _ _ hblank) (boolByte_inj _ _ hfloor)
    (boolByte_inj _ _ hpending) hmaximum (boolByte_inj _ _ hmaximumFlags.1)
    (boolByte_inj _ _ hmaximumFlags.2) htrimmed (endpointReasonByte_inj _ _ hreason) hactivity
    hgap, h⟩

/-! ## The temporal part -/

theorem encodeTemporal_inj {a b : RowData} (h : encodeTemporal a = encodeTemporal b) :
    a.toRowTemporalView = b.toRowTemporalView := by
  simp only [encodeTemporal, List.append_assoc] at h
  have h := List.append_cancel_left h
  obtain ⟨htimestamp, h⟩ := selfDelimiting_i64Bytes.split h
  obtain ⟨htimezone, h⟩ := selfDelimiting_sharedField.split h
  obtain ⟨hgap, h⟩ := selfDelimiting_f64Bytes.split h
  obtain ⟨hdate, h⟩ := selfDelimiting_sharedField.split h
  obtain ⟨hcalendar, h⟩ := List.append_inj h rfl
  obtain ⟨htiming, h⟩ := selfDelimiting_encodeEpisodeTiming.split h
  obtain ⟨hvalid, hany⟩ := selfDelimiting_f64Bytes.split h
  have hany := selfDelimiting_f64Bytes.inj trivial trivial hany
  simp only [List.cons.injEq, and_true] at hcalendar
  obtain ⟨hday, hweekdayMf, hweekdayMth, hweekdaySuTh, hhour, hquarter⟩ := hcalendar
  exact RowTemporalView.ext htimestamp htimezone hgap hdate hday hweekdayMf hweekdayMth
    hweekdaySuTh hhour hquarter htiming hvalid hany

/-! ## The identity part -/

theorem selfDelimiting_encodeRange :
    SelfDelimiting fun rows : DataRowRange => encodeRange rows.range := by
  refine selfDelimiting_of_length (fun _ => length_encodeRange _) fun a b h => ?_
  have hrange := encodeRange_inj ⟨a.first.toNat_lt, a.last.toNat_lt⟩
    ⟨b.first.toNat_lt, b.last.toNat_lt⟩ h
  obtain ⟨hfirst, hlast⟩ := SourceDataRowRange.mk.inj hrange
  exact DataRowRange.ext (UInt32.toNat_inj.mp hfirst) (UInt32.toNat_inj.mp hlast)

theorem selfDelimiting_u32 : SelfDelimiting fun n : UInt32 => leBytes 4 n.toNat :=
  (delimits_leBytes 4).comap UInt32.toNat (fun n _ => n.toNat_lt) fun _ _ _ _ => UInt32.toNat_inj.mp

/-- The text of a digest determines it, whatever follows. -/
theorem selfDelimiting_digest : SelfDelimiting fun digest : Vector UInt8 32 =>
    textField ("blake3:" ++ hexEncode digest.toList) := by
  refine delimits_text.comap (fun digest : Vector UInt8 32 => "blake3:" ++ hexEncode digest.toList)
    ?_ ?_
  · intro digest _
    have hbytes := length_utf8_le ("blake3:" ++ hexEncode digest.toList)
    rw [String.toList_append, List.length_append, length_hexEncode, Vector.length_toList] at hbytes
    have hbegins : "blake3:".toList.length = 7 := by decide
    omega
  · intro a _ b _ h
    have hdigits := congrArg String.toList h
    rw [String.toList_append, String.toList_append] at hdigits
    have hhex := String.toList_inj.mp (List.append_cancel_left hdigits)
    exact Vector.toList_inj.mp (hexEncode_inj hhex)

theorem selfDelimiting_encodeSearch :
    SelfDelimiting fun search : LineageSearch => encodeSearch search.evidence := by
  intro a _ b _ s t h
  simp only [encodeSearch, LineageSearch.evidence, List.append_assoc] at h
  obtain ⟨hprotocol, h⟩ := selfDelimiting_sharedField.split h
  obtain ⟨hreason, h⟩ := selfDelimiting_sharedField.split h
  obtain ⟨hspace, h⟩ := selfDelimiting_sharedField.split h
  obtain ⟨hparticipant, h⟩ := selfDelimiting_sharedField.split h
  obtain ⟨hstart, h⟩ := selfDelimiting_u32.split h
  obtain ⟨hend, h⟩ := selfDelimiting_u32.split h
  obtain ⟨hcount, h⟩ := selfDelimiting_u32.split h
  obtain ⟨hdigest, h⟩ := selfDelimiting_digest.split h
  exact ⟨LineageSearch.ext hprotocol hreason hspace hparticipant hstart hend hcount hdigest, h⟩

/-- Vectors with their count in front are told apart where their elements are. -/
theorem split_counted {α : Type} {encode : α → List UInt8} (h : SelfDelimiting encode)
    {a b : Vec α} {s t : List UInt8}
    (heq : leBytes 8 a.toList.length ++ (a.toList.flatMap encode ++ s) =
      leBytes 8 b.toList.length ++ (b.toList.flatMap encode ++ t)) : a = b ∧ s = t := by
  obtain ⟨hlength, heq⟩ := delimits_leBytes 8 a.fits b.fits heq
  obtain ⟨hlist, hrest⟩ := h.flatMap (fun _ _ => trivial) (fun _ _ => trivial) hlength heq
  exact ⟨Vec.ext hlist, hrest⟩

theorem identityView_eq_of_encode {a b : RowData} {first second : CheckpointRow}
    (hfirst : encodeRowCheckpointParts a = some first)
    (hsecond : encodeRowCheckpointParts b = some second)
    (h : encodeIdentity first = encodeIdentity second) :
    a.toRowIdentityView = b.toRowIdentityView := by
  obtain ⟨_, _, rfl⟩ := Option.map_eq_some_iff.mp hfirst
  obtain ⟨_, _, rfl⟩ := Option.map_eq_some_iff.mp hsecond
  simp only [encodeIdentity, RowData.identityRow, List.append_assoc, List.length_map,
    List.flatMap_map] at h
  have h := List.append_cancel_left h
  -- the number of rows follows from the ranges
  obtain ⟨-, h⟩ := List.append_inj h (by simp)
  obtain ⟨hranges, h⟩ := split_counted selfDelimiting_encodeRange h
  obtain ⟨hsearches, hindex⟩ := split_counted selfDelimiting_encodeSearch h
  have hindex := leBytes_inj a.index.toNat_lt b.index.toNat_lt hindex
  exact RowIdentityView.ext hranges hsearches (UInt64.toNat_inj.mp hindex)

/-! ## The codebook -/

theorem length_codebookValues (view : RowClassificationView) :
    view.codebookValues.length = view.codebookFields.toList.length :=
  List.length_mapIdx

/-- The shorter way of writing absent fields writes the same bytes. -/
theorem encodeCodebookFields_eq (data : RowData) :
    encodeCodebookFields data = data.codebookValues.flatMap (digestOptional sharedField) := by
  rw [encodeCodebookFields]
  split
  · next habsent =>
      have hvalues : data.codebookValues = List.replicate data.codebookFields.toList.length none := by
        refine List.eq_replicate_iff.mpr ⟨length_codebookValues _, fun value hvalue => ?_⟩
        obtain ⟨position, hposition, rfl⟩ := List.mem_mapIdx.mp hvalue
        have hfield := List.all_eq_true.mp habsent _ (List.getElem_mem hposition)
        rw [Option.isNone_iff_eq_none.mp hfield, ite_self]
      rw [hvalues, List.flatMap_replicate]
      simp [digestOptional]
  · rfl

/-! ## Sections -/

section Tags

variable {tag other : String} {α : Type} {encode : α → List UInt8}

theorem not_textField_prefix_nil : ¬textField tag <+: [] := by
  intro h
  have hlength := h.length_le
  rw [textField, digestField, List.length_append, length_leBytes] at hlength
  simp at hlength

/-- A section with another tag does not begin with this one. -/
theorem not_textField_prefix_tagged {value : Option α} {s : List UInt8} (hne : tag ≠ other)
    (htag : (utf8 tag).length < 2 ^ 64) (hother : (utf8 other).length < 2 ^ 64)
    (hs : ¬textField tag <+: s) :
    ¬textField tag <+: tagged (textField other) encode value ++ s := by
  cases value with
  | none => exact hs
  | some value =>
      rintro ⟨rest, h⟩
      rw [tagged, List.append_assoc] at h
      exact hne (delimits_text htag hother h).1

end Tags

/-! ## The provenance of the interval -/

/-- The row carries a completion exactly when it is no screen row and has an interval. -/
def RowClassificationView.CompletionWhereExpected (view : RowClassificationView) : Prop :=
  view.schoedelCompletion.isSome ↔
    view.interactionType.text ≠ screenUsage ∧ view.screenIntervalId.isSome

theorem length_canonicalId_lt (completion : SchoedelCompletion) :
    (utf8 completion.canonicalId).length < 2 ^ 64 := by
  cases completion <;> decide +kernel

theorem canonicalId_inj {a b : SchoedelCompletion} (h : a.canonicalId = b.canonicalId) : a = b := by
  cases a <;> cases b <;> simp_all [SchoedelCompletion.canonicalId]

/-- An interval and a completion, as the provenance holds them. -/
def encodeCompletion (completed : SharedString × SchoedelCompletion) : List UInt8 :=
  sharedField completed.1 ++ textField completed.2.canonicalId

theorem selfDelimiting_encodeCompletion : SelfDelimiting encodeCompletion := by
  intro a _ b _ s t h
  rw [encodeCompletion, encodeCompletion, List.append_assoc, List.append_assoc] at h
  obtain ⟨hinterval, h⟩ := selfDelimiting_sharedField.split h
  obtain ⟨hcompletion, h⟩ :=
    delimits_text (length_canonicalId_lt a.2) (length_canonicalId_lt b.2) h
  exact ⟨Prod.ext hinterval (canonicalId_inj hcompletion), h⟩

/-- The provenance is a section, under the one tag for screen rows and the other for the rest. -/
theorem encodeIntervalProvenance_eq {data : RowData} (h : data.CompletionWhereExpected) :
    encodeIntervalProvenance data = some
      (if data.interactionType.text = screenUsage then
        tagged (textField "chronicle-screen-interval-provenance/v1") sharedField
          data.screenIntervalId
      else tagged (textField "chronicle-schoedel-provenance/v1") encodeCompletion
        (data.screenIntervalId.bind fun intervalId =>
          data.schoedelCompletion.map (intervalId, ·))) := by
  rw [encodeIntervalProvenance]
  split
  · next hnone => simp [hnone, tagged]
  · next intervalId hsome =>
      split
      · simp [hsome, tagged]
      · next hscreen =>
          obtain ⟨completion, hcompletion⟩ := Option.isSome_iff_exists.mp
            (h.mpr ⟨hscreen, by rw [hsome]; rfl⟩)
          simp [hsome, hcompletion, tagged, encodeCompletion]

/-- An optional column begins with a zero or a one. -/
theorem not_prefix_digestOptional {α : Type} {encode : α → List UInt8} {value : Option α}
    {tag s : List UInt8} {byte : UInt8} (htag : tag.head? = some byte) (hzero : byte ≠ 0)
    (hone : byte ≠ 1) : ¬tag <+: digestOptional encode value ++ s := by
  rintro ⟨rest, h⟩
  have hhead := congrArg List.head? h
  rw [List.head?_append, htag, Option.some_or] at hhead
  cases value with
  | none => exact hzero (Option.some.inj hhead)
  | some value => exact hone (Option.some.inj hhead)

/-- The tags of the provenance do not begin what follows it. -/
theorem not_prefix_encodeDerivedLabels {tag s : List UInt8} {byte : UInt8} (data : RowData)
    (htag : tag.head? = some byte) (hzero : byte ≠ 0) (hone : byte ≠ 1) :
    ¬tag <+: encodeDerivedLabels data ++ s := by
  simp only [encodeDerivedLabels, List.append_assoc]
  exact not_prefix_digestOptional htag hzero hone

theorem head?_screenTag :
    (textField "chronicle-screen-interval-provenance/v1").head? = some 39 := by
  decide +kernel

theorem head?_schoedelTag : (textField "chronicle-schoedel-provenance/v1").head? = some 32 := by
  decide +kernel

/-- Two values that are present together are determined by their pair. -/
theorem eq_of_paired {α β : Type} {x x' : Option α} {y y' : Option β}
    (h : y.isSome ↔ x.isSome) (h' : y'.isSome ↔ x'.isSome)
    (hpair : (x.bind fun a => y.map (a, ·)) = x'.bind fun a => y'.map (a, ·)) :
    x = x' ∧ y = y' := by
  cases x <;> cases x' <;> cases y <;> cases y' <;> simp_all

/-- Rows of one interaction type are told apart by the provenance. -/
theorem split_provenance {a b : RowData} (ha : a.CompletionWhereExpected)
    (hb : b.CompletionWhereExpected) (htype : a.interactionType = b.interactionType)
    {provenance provenance' s t : List UInt8}
    (hfirst : encodeIntervalProvenance a = some provenance)
    (hsecond : encodeIntervalProvenance b = some provenance')
    (h : provenance ++ (encodeDerivedLabels a ++ s) =
      provenance' ++ (encodeDerivedLabels b ++ t)) :
    a.screenIntervalId = b.screenIntervalId ∧ a.schoedelCompletion = b.schoedelCompletion ∧
      encodeDerivedLabels a ++ s = encodeDerivedLabels b ++ t := by
  rw [encodeIntervalProvenance_eq ha, Option.some.injEq] at hfirst
  rw [encodeIntervalProvenance_eq hb, Option.some.injEq] at hsecond
  subst hfirst hsecond
  rw [RowClassificationView.CompletionWhereExpected, htype] at ha
  rw [RowClassificationView.CompletionWhereExpected] at hb
  rw [htype] at h
  split at h
  · next hscreen =>
      obtain ⟨hinterval, h⟩ := selfDelimiting_sharedField.tagged (fun _ _ => trivial)
        (fun _ _ => trivial)
        (not_prefix_encodeDerivedLabels a head?_screenTag (by decide) (by decide))
        (not_prefix_encodeDerivedLabels b head?_screenTag (by decide) (by decide)) h
      refine ⟨hinterval, ?_, h⟩
      -- no screen row carries a completion
      simp_all
  · next hscreen =>
      obtain ⟨hpair, h⟩ := selfDelimiting_encodeCompletion.tagged (fun _ _ => trivial)
        (fun _ _ => trivial)
        (not_prefix_encodeDerivedLabels a head?_schoedelTag (by decide) (by decide))
        (not_prefix_encodeDerivedLabels b head?_schoedelTag (by decide) (by decide)) h
      rw [and_iff_right hscreen] at ha hb
      obtain ⟨hinterval, hcompletion⟩ := eq_of_paired ha hb hpair
      exact ⟨hinterval, hcompletion, h⟩

/-! ## The classification part -/

/-- The columns in front of the provenance. -/
structure SameLabels (a b : RowClassificationView) : Prop where
  studyId : a.studyId = b.studyId
  participantId : a.participantId = b.participantId
  possibleDeviceModel : a.possibleDeviceModel = b.possibleDeviceModel
  username : a.username = b.username
  applicationLabel : a.applicationLabel = b.applicationLabel
  interactionType : a.interactionType = b.interactionType
  appPackageName : a.appPackageName = b.appPackageName
  anyAppUsageFlags : a.anyAppUsageFlags = b.anyAppUsageFlags
  screenUsageEndReason : a.screenUsageEndReason = b.screenUsageEndReason
  appUsageEndReason : a.appUsageEndReason = b.appUsageEndReason

theorem split_labels {a b : RowData} {s t : List UInt8}
    (h : encodeLabels a ++ s = encodeLabels b ++ t) :
    SameLabels a.toRowClassificationView b.toRowClassificationView ∧ s = t := by
  simp only [encodeLabels, List.append_assoc] at h
  have h := List.append_cancel_left h
  have htext := selfDelimiting_sharedField
  have hoptional := selfDelimiting_digestOptional selfDelimiting_sharedField
  obtain ⟨hstudy, h⟩ := htext.split h
  obtain ⟨hparticipant, h⟩ := htext.split h
  obtain ⟨hmodel, h⟩ := htext.split h
  obtain ⟨husername, h⟩ := htext.split h
  obtain ⟨hlabel, h⟩ := htext.split h
  obtain ⟨htype, h⟩ := htext.split h
  obtain ⟨hpackage, h⟩ := htext.split h
  obtain ⟨hflags, h⟩ := htext.split h
  obtain ⟨hscreenReason, h⟩ := hoptional.split h
  obtain ⟨happReason, h⟩ := hoptional.split h
  exact ⟨⟨hstudy, hparticipant, hmodel, husername, hlabel, htype, hpackage, hflags, hscreenReason,
    happReason⟩, h⟩

/-- The columns between the provenance and the codebook. -/
structure SameDerivedLabels (a b : RowClassificationView) : Prop where
  usageSessionId : a.usageSessionId = b.usageSessionId
  confidence : a.screenUsageEndReasonConfidence = b.screenUsageEndReasonConfidence
  stopEventType : a.screenUsageStopEventType = b.screenUsageStopEventType
  foregroundAppPackage : a.screenUsageForegroundAppPackage = b.screenUsageForegroundAppPackage
  appsForcingScreenOpenLabel :
    a.screenUsageAppsForcingScreenOpenLabel = b.screenUsageAppsForcingScreenOpenLabel
  lockScreenOnly : a.screenUsageLockScreenOnly = b.screenUsageLockScreenOnly
  validAppNewEngage30s : a.validAppNewEngage30s = b.validAppNewEngage30s
  validAppNewEngageCustom : a.validAppNewEngageCustom = b.validAppNewEngageCustom
  validAppSwitchedApp : a.validAppSwitchedApp = b.validAppSwitchedApp
  anyAppNewEngage30s : a.anyAppNewEngage30s = b.anyAppNewEngage30s
  anyAppNewEngageCustom : a.anyAppNewEngageCustom = b.anyAppNewEngageCustom
  anyAppSwitchedApp : a.anyAppSwitchedApp = b.anyAppSwitchedApp
  genreIdScraped : a.genreIdScraped = b.genreIdScraped
  broadAppCategory : a.broadAppCategory = b.broadAppCategory

theorem split_derivedLabels {a b : RowData} {s t : List UInt8}
    (h : encodeDerivedLabels a ++ s = encodeDerivedLabels b ++ t) :
    SameDerivedLabels a.toRowClassificationView b.toRowClassificationView ∧ s = t := by
  simp only [encodeDerivedLabels, List.append_assoc] at h
  have hi32 := selfDelimiting_i32Bytes
  have hoptional := selfDelimiting_digestOptional selfDelimiting_sharedField
  obtain ⟨hsession, h⟩ := (selfDelimiting_digestOptional selfDelimiting_i64Bytes).split h
  obtain ⟨hconfidence, h⟩ := (selfDelimiting_digestOptional selfDelimiting_f64Bytes).split h
  obtain ⟨hstopEvent, h⟩ := hoptional.split h
  obtain ⟨hforeground, h⟩ := hoptional.split h
  obtain ⟨hforcing, h⟩ := hoptional.split h
  obtain ⟨hlock, h⟩ := selfDelimiting_encodeLockScreenOnly.split h
  obtain ⟨hvalid30, h⟩ := hi32.split h
  obtain ⟨hvalidCustom, h⟩ := hi32.split h
  obtain ⟨hvalidSwitched, h⟩ := hi32.split h
  obtain ⟨hany30, h⟩ := hi32.split h
  obtain ⟨hanyCustom, h⟩ := hi32.split h
  obtain ⟨hanySwitched, h⟩ := hi32.split h
  obtain ⟨hgenre, h⟩ := hoptional.split h
  obtain ⟨hbroad, h⟩ := hoptional.split h
  exact ⟨⟨hsession, hconfidence, hstopEvent, hforeground, hforcing, hlock, hvalid30, hvalidCustom,
    hvalidSwitched, hany30, hanyCustom, hanySwitched, hgenre, hbroad⟩, h⟩

theorem selfDelimiting_microUse :
    SelfDelimiting fun value => textField (microUseCanonicalId value) := by
  refine delimits_text.comap microUseCanonicalId ?_ ?_
  · intro value _
    cases value <;> decide +kernel
  · intro a _ b _ h
    cases a <;> cases b <;> simp_all [microUseCanonicalId]

theorem selfDelimiting_boolByte : SelfDelimiting fun value => [boolByte value] :=
  selfDelimiting_of_length (fun _ => rfl) fun a b h => boolByte_inj a b (List.cons.inj h).1

/-- The tags of the sections that end the classification part. -/
def lateTags : List String :=
  ["chronicle-b03-classification/v1", "chronicle-screen-session-classification/v1",
    "chronicle-screen-app-observation/v1"]

theorem length_lt_of_mem_lateTags : ∀ tag ∈ lateTags, (utf8 tag).length < 2 ^ 64 := by
  decide +kernel

/-- The columns from the codebook on. -/
structure SameLateLabels (a b : RowClassificationView) : Prop where
  codebookValues : a.codebookValues = b.codebookValues
  usageLayer : a.usageLayer = b.usageLayer
  microUseClassification : a.microUseClassification = b.microUseClassification
  sessionClassification : a.screenUsageSessionClassification = b.screenUsageSessionClassification
  appObserved : a.screenUsageAppObserved = b.screenUsageAppObserved

theorem sameLateLabels_of_encode {a b : RowData} (h : encodeLateLabels a = encodeLateLabels b) :
    SameLateLabels a.toRowClassificationView b.toRowClassificationView := by
  have hoptional := selfDelimiting_digestOptional selfDelimiting_sharedField
  have hmicroLength := length_lt_of_mem_lateTags "chronicle-b03-classification/v1" (by simp [lateTags])
  have hsessionLength := length_lt_of_mem_lateTags "chronicle-screen-session-classification/v1"
    (by simp [lateTags])
  have hobservedLength := length_lt_of_mem_lateTags "chronicle-screen-app-observation/v1"
    (by simp [lateTags])
  rw [encodeLateLabels, encodeLateLabels, encodeCodebookFields_eq, encodeCodebookFields_eq,
    ← length_codebookValues, ← length_codebookValues] at h
  rw [← List.append_nil (tagged _ _ a.screenUsageAppObserved),
    ← List.append_nil (tagged _ _ b.screenUsageAppObserved)] at h
  simp only [List.append_assoc] at h
  obtain ⟨hlength, h⟩ := delimits_leBytes 8 (by rw [length_codebookValues]; exact a.codebookFields.fits)
    (by rw [length_codebookValues]; exact b.codebookFields.fits) h
  obtain ⟨hcodebook, h⟩ := hoptional.flatMap (fun _ _ => trivial) (fun _ _ => trivial) hlength h
  obtain ⟨hlayer, h⟩ := hoptional.split h
  -- each section ends where the next tag or the end stands
  obtain ⟨hmicro, h⟩ := selfDelimiting_microUse.tagged (fun _ _ => trivial) (fun _ _ => trivial)
    (not_textField_prefix_tagged (by decide) hmicroLength hsessionLength
      (not_textField_prefix_tagged (by decide) hmicroLength hobservedLength not_textField_prefix_nil))
    (not_textField_prefix_tagged (by decide) hmicroLength hsessionLength
      (not_textField_prefix_tagged (by decide) hmicroLength hobservedLength not_textField_prefix_nil)) h
  obtain ⟨hsession, h⟩ := selfDelimiting_sharedField.tagged (fun _ _ => trivial) (fun _ _ => trivial)
    (not_textField_prefix_tagged (by decide) hsessionLength hobservedLength not_textField_prefix_nil)
    (not_textField_prefix_tagged (by decide) hsessionLength hobservedLength not_textField_prefix_nil) h
  obtain ⟨hobserved, -⟩ := selfDelimiting_boolByte.tagged (fun _ _ => trivial) (fun _ _ => trivial)
    not_textField_prefix_nil not_textField_prefix_nil h
  exact ⟨hcodebook, hlayer, hmicro, hsession, hobserved⟩

/-! ## Rows that agree -/

/-- The data, where a codebook field that is marked as cleared is absent. -/
def RowData.withoutCleared (data : RowData) : RowData :=
  { data with
    codebookFields :=
      ⟨data.codebookValues, (length_codebookValues _).symm ▸ data.codebookFields.fits⟩
    codebookGenreFieldsCleared := none }

theorem RowData.eq_of_views {a b : RowData} (hidentity : a.toRowIdentityView = b.toRowIdentityView)
    (htemporal : a.toRowTemporalView = b.toRowTemporalView)
    (hclassification : a.toRowClassificationView = b.toRowClassificationView) : a = b := by
  cases a
  cases b
  cases hidentity
  cases htemporal
  cases hclassification
  rfl

/-- The data agree in every column. -/
def RowData.Agrees (a b : RowData) : Prop := a.withoutCleared = b.withoutCleared

theorem codebookValues_withoutCleared (data : RowData) :
    data.withoutCleared.codebookValues = data.codebookValues := by
  rw [RowClassificationView.codebookValues, RowData.withoutCleared]
  exact List.ext_getElem (by simp) (by simp)

/-- What is marked as cleared is not encoded. -/
theorem encodeRowCheckpointParts_withoutCleared (data : RowData) :
    encodeRowCheckpointParts data.withoutCleared = encodeRowCheckpointParts data := by
  have hlate : encodeLateLabels data.withoutCleared = encodeLateLabels data := by
    rw [encodeLateLabels, encodeLateLabels, encodeCodebookFields_eq, encodeCodebookFields_eq,
      codebookValues_withoutCleared, ← length_codebookValues, ← length_codebookValues,
      codebookValues_withoutCleared]
    rfl
  rw [encodeRowCheckpointParts, encodeRowCheckpointParts, hlate]
  rfl

theorem exists_encodeRowCheckpointParts {data : RowData} (h : data.CompletionWhereExpected) :
    ∃ row, encodeRowCheckpointParts data = some row := by
  rw [encodeRowCheckpointParts, encodeIntervalProvenance_eq h]
  exact ⟨_, rfl⟩

variable {a b : RowData} {first second : CheckpointRow}

theorem classification_of_encode (ha : a.CompletionWhereExpected) (hb : b.CompletionWhereExpected)
    (hfirst : encodeRowCheckpointParts a = some first)
    (hsecond : encodeRowCheckpointParts b = some second)
    (h : first.classification = second.classification) :
    a.withoutCleared.toRowClassificationView = b.withoutCleared.toRowClassificationView := by
  obtain ⟨_, hprovenance, rfl⟩ := Option.map_eq_some_iff.mp hfirst
  obtain ⟨_, hprovenance', rfl⟩ := Option.map_eq_some_iff.mp hsecond
  simp only [List.append_assoc] at h
  obtain ⟨hlabels, h⟩ := split_labels h
  obtain ⟨hinterval, hcompletion, h⟩ :=
    split_provenance ha hb hlabels.interactionType hprovenance hprovenance' h
  obtain ⟨hderived, h⟩ := split_derivedLabels h
  have hlate := sameLateLabels_of_encode h
  exact RowClassificationView.ext hlabels.studyId hlabels.participantId hlabels.possibleDeviceModel
    hlabels.username hlabels.applicationLabel hlabels.interactionType hlabels.appPackageName
    hlabels.anyAppUsageFlags hlabels.screenUsageEndReason hlabels.appUsageEndReason hinterval
    hcompletion hderived.usageSessionId hderived.confidence hderived.stopEventType
    hderived.foregroundAppPackage hlate.appObserved hlate.sessionClassification
    hderived.appsForcingScreenOpenLabel hderived.lockScreenOnly hderived.validAppNewEngage30s
    hderived.validAppNewEngageCustom hderived.validAppSwitchedApp hderived.anyAppNewEngage30s
    hderived.anyAppNewEngageCustom hderived.anyAppSwitchedApp hderived.genreIdScraped
    hderived.broadAppCategory (Vec.ext hlate.codebookValues) rfl hlate.usageLayer
    hlate.microUseClassification

/-- The three encodings are equal exactly for rows that agree. -/
theorem agrees_iff_encode (ha : a.CompletionWhereExpected) (hb : b.CompletionWhereExpected)
    (hfirst : encodeRowCheckpointParts a = some first)
    (hsecond : encodeRowCheckpointParts b = some second) :
    a.Agrees b ↔ encodeIdentity first = encodeIdentity second ∧ first.temporal = second.temporal ∧
      first.classification = second.classification := by
  constructor
  · intro hagrees
    rw [← encodeRowCheckpointParts_withoutCleared] at hfirst hsecond
    rw [hagrees, hsecond, Option.some.injEq] at hfirst
    subst hfirst
    exact ⟨rfl, rfl, rfl⟩
  · intro ⟨hidentity, htemporal, hclassification⟩
    have hidentityView := identityView_eq_of_encode hfirst hsecond hidentity
    have hclassificationView := classification_of_encode ha hb hfirst hsecond hclassification
    obtain ⟨_, _, rfl⟩ := Option.map_eq_some_iff.mp hfirst
    obtain ⟨_, _, rfl⟩ := Option.map_eq_some_iff.mp hsecond
    exact RowData.eq_of_views hidentityView (encodeTemporal_inj htemporal) hclassificationView

end Chronicle.Checkpoint
