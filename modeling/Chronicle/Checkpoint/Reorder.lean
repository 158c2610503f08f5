import Chronicle.Checkpoint.Reuse

/-!
# Checkpoints of reordered rows

The canonical order of a table does not depend on the order of its rows, up to rows of one source
and one index: those stand as the table has them. So the digests in the canonical order survive a
reordering exactly if such rows have the same parts.
-/

namespace Chronicle.Checkpoint

open Chronicle.Library Chronicle.Library.Bytes Chronicle.Library.StableSort Chronicle.Pipeline

/-- `checkpoint_for_reordered_exact_rows` -/
def checkpointForReorderedExactRows (hashes : Hashes) (nodeId : String) (rows : List CheckpointRow)
    (previous : WorkflowCheckpoint) : WorkflowCheckpoint :=
  let checkpoint := checkpointForExactRowState hashes nodeId previous []
  let order := finishCheckpointDigest hashes (checkpointHasher "row-order" ++ leBytes 8 1 ++
    textField "rows" ++ leBytes 8 rows.length ++ rows.zipIdx.flatMap fun entry =>
      digestPositionedFixed16 entry.2 (rowCheckpointParts hashes entry.1).identity)
  { checkpoint with
    rowOrderDigest := order
    terminalDigest := terminalCheckpointDigest hashes nodeId
      [checkpoint.rowMembershipDigest, order, checkpoint.temporalStateDigest,
        checkpoint.classificationDigest, checkpoint.payloadDigest, checkpoint.schemaDigest] }

/-- Rows that no part of a checkpoint tells apart. -/
structure CheckpointRow.Alike (first second : CheckpointRow) : Prop where
  identity : encodeIdentity first = encodeIdentity second
  temporal : first.temporal = second.temporal
  classification : first.classification = second.classification

/-- What a digest in the canonical order is formed of. -/
def canonicalBytes (hashes : Hashes) (component : String)
    (select : RowCheckpointParts → List UInt8) (rows : List CheckpointRow) : List UInt8 :=
  checkpointHasher component ++ leBytes 8 1 ++ (textField "rows" ++ leBytes 8 rows.length ++
    orderedColumn (identityOrder rows) ((rowCheckpointPartsForRows hashes rows).map select))

/-- The digests in the canonical order, and what they show of each row. -/
def canonicalComponents : List (String × (RowCheckpointParts → List UInt8)) :=
  [("row-membership", RowCheckpointParts.identity), ("temporal-state", RowCheckpointParts.temporal),
    ("classification", RowCheckpointParts.classification)]

/-- Neither the fingerprints of the rows' parts collide, nor those of the table's digests in any of
its orders. -/
structure FingerprintsApart (hashes : Hashes) (rows : List CheckpointRow) : Prop where
  width : ∀ bytes, (hashes.xxh3 bytes).length = 16
  identity : ∀ x ∈ rows, ∀ y ∈ rows, hashes.xxh3 (encodeIdentity x) =
    hashes.xxh3 (encodeIdentity y) → encodeIdentity x = encodeIdentity y
  temporal : ∀ x ∈ rows, ∀ y ∈ rows, hashes.xxh3 x.temporal = hashes.xxh3 y.temporal →
    x.temporal = y.temporal
  classification : ∀ x ∈ rows, ∀ y ∈ rows, hashes.xxh3 x.classification =
    hashes.xxh3 y.classification → x.classification = y.classification
  digests : ∀ rows', rows.Perm rows' → ∀ component ∈ canonicalComponents,
    hashes.xxh3 (canonicalBytes hashes component.1 component.2 rows') =
      hashes.xxh3 (canonicalBytes hashes component.1 component.2 rows) →
    canonicalBytes hashes component.1 component.2 rows' =
      canonicalBytes hashes component.1 component.2 rows

/-- In any order the table keeps its membership, temporal and classification digests, only its
order digest and with it the terminal digest differ, and the checkpoint of the reordered rows is the
one from scratch. -/
def SurvivesReordering (hashes : Hashes) (rows : List CheckpointRow) : Prop :=
  ∀ rows', rows.Perm rows' → ∀ before nodeId payloads, ∃ previous same fresh,
    workflowCheckpoint hashes before [("rows", rows)] payloads = .ok previous ∧
    workflowCheckpoint hashes before [("rows", rows')] payloads = .ok same ∧
    workflowCheckpoint hashes nodeId [("rows", rows')] [] = .ok fresh ∧
    same.rowMembershipDigest = previous.rowMembershipDigest ∧
    same.temporalStateDigest = previous.temporalStateDigest ∧
    same.classificationDigest = previous.classificationDigest ∧
    same = { previous with
      rowOrderDigest := same.rowOrderDigest
      terminalDigest := same.terminalDigest } ∧
    checkpointForReorderedExactRows hashes nodeId rows' previous = fresh

/-! ## The canonical order of the rows -/

/-- The rows in the canonical order. -/
theorem orderedColumn_eq (rows : List CheckpointRow) (shown : CheckpointRow → List UInt8) :
    (identityOrder rows).filterMap ((rows.map shown)[·]?) =
      (sortByKey CheckpointRow.canonicalKey rows).map shown := by
  have hrows : rows = (List.range rows.length).map fun i => rows.getD i default := by
    refine List.ext_getElem (by simp) fun i hleft hright => ?_
    simp [List.getD_eq_getElem?_getD, List.getElem?_eq_getElem hleft]
  have hstable : identityOrder rows = sortByKey (keyAt rows) (List.range rows.length) :=
    (sortByKey_eq_sortByKey_lex id List.pairwise_lt_range fun _ _ _ _ => id).symm
  have hsort : sortByKey CheckpointRow.canonicalKey rows =
      (sortByKey (keyAt rows) (List.range rows.length)).map fun i => rows.getD i default := by
    conv_lhs => rw [hrows]
    exact sortByKey_map _ _
  have hget : ∀ i ∈ sortByKey (keyAt rows) (List.range rows.length),
      (rows.map shown)[i]? = some (shown (rows.getD i default)) := by
    intro i hi
    have hlt := List.mem_range.mp (mem_sortByKey.mp hi)
    simp [List.getD_eq_getElem?_getD, List.getElem?_eq_getElem hlt]
  rw [hstable, hsort, List.map_map, List.filterMap_congr hget]
  exact congrFun List.filterMap_eq_map' _

/-- A column of the parts in the canonical order. -/
theorem canonicalBytes_eq (hashes : Hashes) (component : String)
    (select : RowCheckpointParts → List UInt8) (rows : List CheckpointRow) :
    canonicalBytes hashes component select rows =
      checkpointHasher component ++ leBytes 8 1 ++ (textField "rows" ++ leBytes 8 rows.length ++
        ((sortByKey CheckpointRow.canonicalKey rows).map fun row =>
          select (rowCheckpointParts hashes row)).flatMap digestFixed16) := by
  rw [canonicalBytes, orderedColumn, rowCheckpointPartsForRows, List.map_map]
  exact congrArg (fun column => _ ++ (_ ++ column.flatMap digestFixed16))
    (orderedColumn_eq rows fun row => select (rowCheckpointParts hashes row))

variable {hashes : Hashes} {rows : List CheckpointRow}

theorem flatMap_digestFixed16_inj {column column' : List (List UInt8)}
    (hwidth : ∀ value ∈ column ++ column', value.length = 16)
    (hlength : column.length = column'.length)
    (h : column.flatMap digestFixed16 = column'.flatMap digestFixed16) : column = column' := by
  induction column generalizing column' with
  | nil => exact (List.eq_nil_of_length_eq_zero hlength.symm).symm
  | cons value column ih =>
      cases column' with
      | nil => cases hlength
      | cons value' column' =>
          have hvalue := hwidth value List.mem_cons_self
          have hvalue' := hwidth value' (List.mem_append_right _ List.mem_cons_self)
          rw [List.flatMap_cons, List.flatMap_cons] at h
          obtain ⟨hhead, htail⟩ := List.append_inj h (by
            simp only [digestFixed16, List.length_append, hvalue, hvalue', length_leBytes])
          have hrest := ih (fun other hother => hwidth other (by
            rcases List.mem_append.mp hother with hleft | hright
            · exact List.mem_append_left _ (List.mem_cons_of_mem _ hleft)
            · exact List.mem_append_right _ (List.mem_cons_of_mem _ hright)))
            (Nat.succ.inj hlength) htail
          rw [hrest, List.append_cancel_left hhead]

/-- A digest in the canonical order is the same for every order of the table exactly if tied rows
have one part. -/
theorem canonicalBytes_perm_iff {select : RowCheckpointParts → List UInt8} (component : String)
    (hwidth : ∀ row ∈ rows, (select (rowCheckpointParts hashes row)).length = 16) :
    (∀ rows', rows.Perm rows' → canonicalBytes hashes component select rows' =
        canonicalBytes hashes component select rows) ↔
      ∀ x ∈ rows, ∀ y ∈ rows, x.canonicalKey = y.canonicalKey →
        select (rowCheckpointParts hashes x) = select (rowCheckpointParts hashes y) := by
  rw [← map_sortByKey_perm_iff]
  have hsame : ∀ rows', rows.Perm rows' → (canonicalBytes hashes component select rows' =
      canonicalBytes hashes component select rows ↔
        ((sortByKey CheckpointRow.canonicalKey rows').map fun row =>
          select (rowCheckpointParts hashes row)) =
        (sortByKey CheckpointRow.canonicalKey rows).map fun row =>
          select (rowCheckpointParts hashes row)) := by
    intro rows' hperm
    rw [canonicalBytes_eq, canonicalBytes_eq, hperm.length_eq, List.append_cancel_left_eq,
      List.append_cancel_left_eq]
    refine ⟨fun h => flatMap_digestFixed16_inj ?_ ?_ h, fun h => by rw [h]⟩
    · intro value hvalue
      rcases List.mem_append.mp hvalue with hvalue | hvalue
      · obtain ⟨row, hrow, rfl⟩ := List.mem_map.mp hvalue
        exact hwidth row (hperm.mem_iff.mpr (mem_sortByKey.mp hrow))
      · obtain ⟨row, hrow, rfl⟩ := List.mem_map.mp hvalue
        exact hwidth row (mem_sortByKey.mp hrow)
    · rw [List.length_map, List.length_map, length_sortByKey, length_sortByKey, hperm.length_eq]
  exact forall_congr' fun rows' => forall_congr' fun hperm => hsame rows' hperm

theorem finishCheckpointDigest_inj {bytes bytes' : List UInt8}
    (h : finishCheckpointDigest hashes bytes = finishCheckpointDigest hashes bytes') :
    hashes.xxh3 bytes = hashes.xxh3 bytes' := by
  have hdigits : hexEncode (hashes.xxh3 bytes).reverse = hexEncode (hashes.xxh3 bytes').reverse :=
    String.append_right_inj _ |>.mp h
  exact List.reverse_injective (hexEncode_inj hdigits)

/-- The three digests of a table in the canonical order. -/
def CanonicalAgree (hashes : Hashes) (rows rows' : List CheckpointRow) : Prop :=
  (scratchDigests hashes rows').membership = (scratchDigests hashes rows).membership ∧
    (scratchDigests hashes rows').temporal = (scratchDigests hashes rows).temporal ∧
    (scratchDigests hashes rows').classification = (scratchDigests hashes rows).classification

theorem survivesReordering_iff_agree : SurvivesReordering hashes rows ↔
    ∀ rows', rows.Perm rows' → CanonicalAgree hashes rows rows' := by
  constructor
  · intro h rows' hperm
    obtain ⟨previous, same, fresh, hprevious, hsame, -, hmembership, htemporal, hclassification, -⟩ :=
      h rows' hperm "" "" []
    rw [workflowCheckpoint_eq] at hprevious hsame
    cases hprevious
    cases hsame
    exact ⟨hmembership, htemporal, hclassification⟩
  · intro h rows' hperm before nodeId payloads
    obtain ⟨hmembership, htemporal, hclassification⟩ := h rows' hperm
    refine ⟨_, _, _, workflowCheckpoint_eq _ _ _ _, workflowCheckpoint_eq _ _ _ _,
      workflowCheckpoint_eq _ _ _ _, hmembership, htemporal, hclassification, ?_, ?_⟩
    · simp only [scratchCheckpoint, sealCheckpoint, hmembership, htemporal, hclassification]
    · have horder : (scratchDigests hashes rows').order =
          finishCheckpointDigest hashes (checkpointHasher "row-order" ++ leBytes 8 1 ++
            textField "rows" ++ leBytes 8 rows'.length ++ rows'.zipIdx.flatMap fun entry =>
              digestPositionedFixed16 entry.2 (rowCheckpointParts hashes entry.1).identity) := by
        simp only [scratchDigests, rowsDigest, rowCheckpointPartsForRows, List.map_map,
          List.zipIdx_map, List.flatMap_map, List.append_assoc]
        rfl
      simp only [checkpointForReorderedExactRows, checkpointForExactRowState, scratchCheckpoint,
        sealCheckpoint, WorkflowCheckpoint.rowDigests, hmembership, htemporal, hclassification,
        horder]

/-- The digests survive every reordering exactly if rows of one source and one index are alike. -/
theorem survivesReordering_iff (h : FingerprintsApart hashes rows) :
    SurvivesReordering hashes rows ↔
      ∀ x ∈ rows, ∀ y ∈ rows, x.canonicalKey = y.canonicalKey → x.Alike y := by
  -- a digest without collisions agrees exactly when its bytes do
  have hdigest : ∀ component ∈ canonicalComponents, ∀ rows', rows.Perm rows' →
      (finishCheckpointDigest hashes (canonicalBytes hashes component.1 component.2 rows') =
          finishCheckpointDigest hashes (canonicalBytes hashes component.1 component.2 rows) ↔
        canonicalBytes hashes component.1 component.2 rows' =
          canonicalBytes hashes component.1 component.2 rows) := by
    intro component hcomponent rows' hperm
    refine ⟨fun heq => ?_, fun heq => by rw [heq]⟩
    exact h.digests rows' hperm component hcomponent (finishCheckpointDigest_inj heq)
  have hagree : (∀ rows', rows.Perm rows' → CanonicalAgree hashes rows rows') ↔
      ∀ component ∈ canonicalComponents, ∀ rows', rows.Perm rows' →
        canonicalBytes hashes component.1 component.2 rows' =
          canonicalBytes hashes component.1 component.2 rows := by
    constructor
    · intro hall component hcomponent rows' hperm
      rw [← hdigest component hcomponent rows' hperm]
      obtain ⟨hmembership, htemporal, hclassification⟩ := hall rows' hperm
      simp only [canonicalComponents, List.mem_cons, List.not_mem_nil, or_false] at hcomponent
      rcases hcomponent with rfl | rfl | rfl
      · exact hmembership
      · exact htemporal
      · exact hclassification
    · intro hall rows' hperm
      have hfinish : ∀ component ∈ canonicalComponents, _ := fun component hcomponent =>
        (hdigest component hcomponent rows' hperm).mpr (hall component hcomponent rows' hperm)
      exact ⟨hfinish ("row-membership", RowCheckpointParts.identity) (by simp [canonicalComponents]),
        hfinish ("temporal-state", RowCheckpointParts.temporal) (by simp [canonicalComponents]),
        hfinish ("classification", RowCheckpointParts.classification)
          (by simp [canonicalComponents])⟩
  rw [survivesReordering_iff_agree, hagree]
  simp only [canonicalComponents, List.forall_mem_cons, List.not_mem_nil, IsEmpty.forall_iff,
    implies_true, and_true]
  rw [canonicalBytes_perm_iff _ fun row _ => h.width _, canonicalBytes_perm_iff _ fun row _ =>
    h.width _, canonicalBytes_perm_iff _ fun row _ => h.width _]
  constructor
  · rintro ⟨hidentity, htemporal, hclassification⟩ x hx y hy hkey
    exact ⟨h.identity x hx y hy (hidentity x hx y hy hkey),
      h.temporal x hx y hy (htemporal x hx y hy hkey),
      h.classification x hx y hy (hclassification x hx y hy hkey)⟩
  · intro halike
    refine ⟨?_, ?_, ?_⟩ <;> intro x hx y hy hkey
    · exact congrArg hashes.xxh3 (halike x hx y hy hkey).identity
    · exact congrArg hashes.xxh3 (halike x hx y hy hkey).temporal
    · exact congrArg hashes.xxh3 (halike x hx y hy hkey).classification

/-- Two pieces of one source row that differ in their temporal columns: reversed, they have another
temporal digest. -/
theorem tiedRows_reordered :
    (scratchDigests verbatimHashes tiedRows.reverse).temporal ≠
        (scratchDigests verbatimHashes tiedRows).temporal ∧
      ¬ SurvivesReordering verbatimHashes tiedRows := by
  have hdiffer : (scratchDigests verbatimHashes tiedRows.reverse).temporal ≠
      (scratchDigests verbatimHashes tiedRows).temporal := by decide +kernel
  refine ⟨hdiffer, ?_⟩
  intro hsurvives
  rw [survivesReordering_iff_agree] at hsurvives
  exact hdiffer (hsurvives _ (List.reverse_perm tiedRows).symm).2.1

/-- Fingerprints that add all bytes up. -/
def sumHashes : Hashes where
  xxh3 bytes := leBytes 16 (bytes.map UInt8.toNat).sum
  sha256 bytes := bytes

/-- Two rows of the file. -/
def untiedRows : List CheckpointRow :=
  [{ sourceDataRows := [⟨1, 1⟩], temporal := [0] }, { sourceDataRows := [⟨2, 2⟩], temporal := [1] }]

theorem untiedRows_reordered : SurvivesReordering sumHashes untiedRows := by
  have hties : ∀ x ∈ untiedRows, ∀ y ∈ untiedRows, x.canonicalKey = y.canonicalKey → x = y := by
    decide
  have happart : FingerprintsApart sumHashes untiedRows := {
    width := fun _ => length_leBytes 16 _
    identity := by decide +kernel
    temporal := by decide +kernel
    classification := by decide +kernel
    digests := by
      intro rows' hperm component hcomponent _
      refine (canonicalBytes_perm_iff component.1 ?_).mpr ?_ rows' hperm
      · intro row hrow
        simp only [canonicalComponents, List.mem_cons, List.not_mem_nil, or_false] at hcomponent
        rcases hcomponent with rfl | rfl | rfl <;> exact length_leBytes 16 _
      · intro x hx y hy hkey
        rw [hties x hx y hy hkey] }
  refine (survivesReordering_iff happart).mpr ?_
  intro x hx y hy hkey
  obtain rfl := hties x hx y hy hkey
  exact ⟨rfl, rfl, rfl⟩

end Chronicle.Checkpoint
