import Chronicle.Checkpoint.Workflow

/-!
# Checkpoints that take digests over

A digest may be taken over from an earlier checkpoint when the parts it was formed of are the same
and stand in the same canonical order. The identity part of a row encodes its sources and its
index, so equal identities are in the same canonical order.
-/

namespace Chronicle.Checkpoint

open Chronicle.Library Chronicle.Library.Bytes Chronicle.Library.StableSort Chronicle.Pipeline

/-! ## Identities -/

/-- The numbers of the row fit the integers of the source: `u32` for rows of the file, `usize` for
lengths and the index. -/
structure CheckpointRow.Fits (row : CheckpointRow) : Prop where
  ranges : ∀ range ∈ row.sourceDataRows, range.first < 2 ^ 32 ∧ range.last < 2 ^ 32
  rangeCount : row.sourceDataRows.length < 2 ^ 64
  index : row.index < 2 ^ 64

theorem length_encodeRange (range : SourceDataRowRange) : (encodeRange range).length = 8 := by
  simp [encodeRange]

theorem encodeRange_inj {first second : SourceDataRowRange}
    (hfirst : first.first < 2 ^ 32 ∧ first.last < 2 ^ 32)
    (hsecond : second.first < 2 ^ 32 ∧ second.last < 2 ^ 32)
    (h : encodeRange first = encodeRange second) : first = second := by
  obtain ⟨hlow, hhigh⟩ := List.append_inj h (by simp)
  have hbegin := leBytes_inj (by omega) (by omega) hlow
  have hend := leBytes_inj (by omega) (by omega) hhigh
  cases first
  cases second
  simp_all

/-- The identity of a row determines its sources and its index. -/
theorem encodeIdentity_inj {first second : CheckpointRow} (hfirst : first.Fits)
    (hsecond : second.Fits) (h : encodeIdentity first = encodeIdentity second) :
    first.sourceDataRows = second.sourceDataRows ∧ first.index = second.index := by
  obtain ⟨hsources, hindex⟩ := List.append_inj' h (by simp)
  have hshape := List.append_cancel_left hsources
  obtain ⟨-, hshape⟩ := List.append_inj hshape (by simp)
  obtain ⟨hcount, hranges⟩ := List.append_inj hshape (by simp)
  have hlength : first.sourceDataRows.length = second.sourceDataRows.length :=
    leBytes_inj hfirst.rangeCount hsecond.rangeCount hcount
  obtain ⟨hranges, -⟩ := List.append_inj hranges (by
    rw [length_flatMap_of_width length_encodeRange, length_flatMap_of_width length_encodeRange,
      hlength])
  refine ⟨flatMap_inj length_encodeRange hlength (fun x hx y hy =>
    encodeRange_inj (hfirst.ranges x hx) (hsecond.ranges y hy)) hranges, ?_⟩
  exact leBytes_inj hfirst.index hsecond.index hindex

/-! ## The canonical order -/

section Order

variable {rows previousRows : List CheckpointRow}

theorem keyAt_eq (rows : List CheckpointRow) (position : Nat) :
    keyAt rows position =
      (rows.map CheckpointRow.canonicalKey).getD position (default : CheckpointRow).canonicalKey := by
  rw [keyAt, List.getD_eq_getElem?_getD, List.getD_eq_getElem?_getD, List.getElem?_map,
    Option.getD_map]

/-- Only the keys of the rows matter to their canonical order. -/
theorem identityOrder_congr
    (h : rows.map CheckpointRow.canonicalKey = previousRows.map CheckpointRow.canonicalKey) :
    identityOrder rows = identityOrder previousRows := by
  have hlength : rows.length = previousRows.length := by
    have := congrArg List.length h
    simpa using this
  have hkeys : keyAt rows = keyAt previousRows := by
    funext position
    rw [keyAt_eq, keyAt_eq, h]
  rw [identityOrder, identityOrder, hkeys, hlength]

/-- A supplied order is sorted by the keys, and by the positions where the keys agree. -/
structure IsCanonicalOrder (rows : List CheckpointRow) (order : List Nat) : Prop where
  perm : order.Perm (List.range rows.length)
  sorted : order.Pairwise fun first second =>
    toLex (keyAt rows first, first) ≤ toLex (keyAt rows second, second)

theorem IsCanonicalOrder.eq {order : List Nat} (h : IsCanonicalOrder rows order) :
    order = identityOrder rows :=
  eq_sortByKey h.perm h.sorted fun _ _ _ _ heq => congrArg (fun pair => (ofLex pair).2) heq

theorem pairwise_of_isCanonical (h : isCanonical rows = true) :
    (rows.map CheckpointRow.canonicalKey).Pairwise (· ≤ ·) := by
  induction rows with
  | nil => exact List.Pairwise.nil
  | cons row rows ih =>
      cases rows with
      | nil => simp
      | cons next rows =>
          simp only [isCanonical, List.tail_cons, List.zip_cons_cons, List.all_cons,
            Bool.and_eq_true, decide_eq_true_eq] at h
          have hrest := ih (by simpa [isCanonical] using h.2)
          refine List.pairwise_cons.mpr ⟨fun key hkey => ?_, hrest⟩
          rcases List.mem_cons.mp hkey with rfl | hkey
          · exact h.1
          · exact h.1.trans ((List.pairwise_cons.mp hrest).1 key hkey)

theorem range_isCanonicalOrder (h : isCanonical rows = true) :
    IsCanonicalOrder rows (List.range rows.length) := by
  refine ⟨List.Perm.refl _, ?_⟩
  refine (List.pairwise_lt_range).imp_of_mem fun {first second} hfirst hsecond hlt => ?_
  have hbound := List.mem_range.mp hsecond
  have hle : keyAt rows first ≤ keyAt rows second := by
    have hpairwise := List.pairwise_iff_getElem.mp (pairwise_of_isCanonical h) first second
      (by rw [List.length_map]; omega) (by rw [List.length_map]; omega) hlt
    simpa [keyAt, List.getD_eq_getElem?_getD, List.getElem?_eq_getElem (hlt.trans hbound),
      List.getElem?_eq_getElem hbound] using hpairwise
  rw [Prod.Lex.le_iff]
  exact hle.lt_or_eq.imp id fun heq => ⟨heq, hlt.le⟩

/-- The order that callers supply is the canonical one. -/
theorem canonicalRowOrder_eq (rows : List CheckpointRow) :
    canonicalRowOrder rows = identityOrder rows := by
  unfold canonicalRowOrder
  split
  · next hcanonical => exact (range_isCanonicalOrder hcanonical).eq
  · exact sortByKey_eq_sortByKey_lex id List.pairwise_lt_range fun _ _ _ _ => id

end Order

/-! ## Digests from scratch -/

section Scratch

variable {hashes : Hashes} {nodeId : String} {rows previousRows : List CheckpointRow}
  {payloads : List Payload}

/-- One column of the parts in an order. -/
def orderedColumn (order : List Nat) (column : List (List UInt8)) : List UInt8 :=
  (order.filterMap (column[·]?)).flatMap digestFixed16

/-- The digest of a component of a single group named "rows". -/
def rowsDigest (hashes : Hashes) (component : String) (rowCount : Nat) (bytes : List UInt8) :
    String :=
  finishCheckpointDigest hashes
    (checkpointHasher component ++ leBytes 8 1 ++ (textField "rows" ++ leBytes 8 rowCount ++ bytes))

/-- The row digests of a table from scratch. -/
def scratchDigests (hashes : Hashes) (rows : List CheckpointRow) : RowDigests :=
  let parts := rowCheckpointPartsForRows hashes rows
  let order := identityOrder rows
  { membership := rowsDigest hashes "row-membership" rows.length
      (orderedColumn order (parts.map RowCheckpointParts.identity))
    order := rowsDigest hashes "row-order" rows.length
      ((parts.map RowCheckpointParts.identity).zipIdx.flatMap fun entry =>
        digestPositionedFixed16 entry.2 entry.1)
    temporal := rowsDigest hashes "temporal-state" rows.length
      (orderedColumn order (parts.map RowCheckpointParts.temporal))
    classification := rowsDigest hashes "classification" rows.length
      (orderedColumn order (parts.map RowCheckpointParts.classification)) }

/-- The checkpoint of a table from scratch. -/
def scratchCheckpoint (hashes : Hashes) (nodeId : String) (rows : List CheckpointRow)
    (payloads : List Payload) : WorkflowCheckpoint :=
  sealCheckpoint hashes nodeId (scratchDigests hashes rows) (payloadDigest hashes payloads)
    (schemaDigest hashes ["rows"] payloads)

theorem flatMap_filterMap_eq (order : List Nat) (parts : List RowCheckpointParts)
    (select : RowCheckpointParts → List UInt8) :
    (order.filterMap (parts[·]?)).flatMap (fun parts => digestFixed16 (select parts)) =
      orderedColumn order (parts.map select) := by
  have hcolumn : ∀ position : Nat, (parts.map select)[position]? = (parts[position]?).map select :=
    fun position => List.getElem?_map
  unfold orderedColumn
  simp only [hcolumn]
  rw [← List.map_filterMap, List.flatMap_map]

/-- What the one group of a table adds, with parts and an order that are up to date. -/
theorem groupBytes_eq {parts : Option (List RowCheckpointParts)} {order : Option (List Nat)}
    (hparts : ∀ given ∈ parts, given = rowCheckpointPartsForRows hashes rows)
    (horder : ∀ given ∈ order, given = identityOrder rows) (label : String) :
    groupBytes hashes label rows parts order =
      .ok
        { membership := textField label ++ leBytes 8 rows.length ++ orderedColumn
            (identityOrder rows)
            ((rowCheckpointPartsForRows hashes rows).map RowCheckpointParts.identity)
          order := textField label ++ leBytes 8 rows.length ++
            ((rowCheckpointPartsForRows hashes rows).map
              RowCheckpointParts.identity).zipIdx.flatMap fun entry =>
                digestPositionedFixed16 entry.2 entry.1
          temporal := textField label ++ leBytes 8 rows.length ++ orderedColumn
            (identityOrder rows)
            ((rowCheckpointPartsForRows hashes rows).map RowCheckpointParts.temporal)
          classification := textField label ++ leBytes 8 rows.length ++ orderedColumn
            (identityOrder rows)
            ((rowCheckpointPartsForRows hashes rows).map RowCheckpointParts.classification) } := by
  have hfresh : parts.getD (rowCheckpointPartsForRows hashes rows) =
      rowCheckpointPartsForRows hashes rows := by
    cases parts with
    | none => rfl
    | some given => exact hparts given rfl
  have hcanonical : order.getD
      (if isCanonical rows then List.range rows.length else identityOrder rows) =
        identityOrder rows := by
    cases order with
    | none =>
        rw [Option.getD_none]
        split
        · next h => exact (range_isCanonicalOrder h).eq
        · rfl
    | some given => exact horder given rfl
  have hlength : (rowCheckpointPartsForRows hashes rows).length = rows.length := List.length_map _
  unfold groupBytes
  simp only [hfresh, hcanonical, hlength, ne_eq, not_true_eq_false, if_false, flatMap_filterMap_eq,
    List.zipIdx_map, List.flatMap_map]
  rfl

/-- The digests that may be taken over are those from scratch. -/
def Reusable (hashes : Hashes) (rows : List CheckpointRow) (previous : PreviousRowState) : Prop :=
  (previous.reusableComponents.membership = true →
    previous.checkpoint.rowMembershipDigest = (scratchDigests hashes rows).membership) ∧
  (previous.reusableComponents.order = true →
    previous.checkpoint.rowOrderDigest = (scratchDigests hashes rows).order) ∧
  (previous.reusableComponents.temporal = true →
    previous.checkpoint.temporalStateDigest = (scratchDigests hashes rows).temporal) ∧
  (previous.reusableComponents.classification = true →
    previous.checkpoint.classificationDigest = (scratchDigests hashes rows).classification)

theorem takeOver_eq {previous : Option PreviousRowState} {reusable : ReusableComponents → Bool}
    {digest : WorkflowCheckpoint → String} {fresh : String}
    (h : ∀ state ∈ previous, reusable state.reusableComponents = true →
      digest state.checkpoint = fresh) : takeOver previous reusable digest fresh = fresh := by
  cases previous with
  | none => rfl
  | some state =>
      rw [takeOver]
      split
      · next hreusable => exact h state rfl hreusable
      · rfl

/-- Every way into the checkpoint of a single group gives the checkpoint from scratch. -/
theorem workflowCheckpointWithGroupParts_eq {parts : Option (List (List RowCheckpointParts))}
    {previous : Option PreviousRowState} {order : Option (List Nat)}
    (hparts : ∀ given ∈ parts, given = [rowCheckpointPartsForRows hashes rows])
    (hprevious : ∀ state ∈ previous, Reusable hashes rows state)
    (horder : ∀ given ∈ order, given = identityOrder rows) :
    workflowCheckpointWithGroupParts hashes nodeId [("rows", rows)] payloads parts previous order =
      .ok (scratchCheckpoint hashes nodeId rows payloads) := by
  have hgiven : ∀ given ∈ parts.bind (·[0]?), given = rowCheckpointPartsForRows hashes rows := by
    intro given hgiven
    obtain ⟨all, hall, hfirst⟩ := Option.bind_eq_some_iff.mp hgiven
    rw [hparts all hall] at hfirst
    exact (Option.some.inj hfirst).symm
  have hgroup := groupBytes_eq hgiven horder "rows"
  have hgroups : ([("rows", rows)].zipIdx.mapM fun entry =>
      groupBytes hashes entry.1.1 entry.1.2 (parts.bind (·[entry.2]?))
        (if entry.2 = 0 then order else none)) = (groupBytes hashes "rows" rows
          (parts.bind (·[0]?)) order).map fun bytes => [bytes] := by
    simp only [List.zipIdx_cons, List.zipIdx_nil, List.mapM_cons, List.mapM_nil, if_true]
    cases groupBytes hashes "rows" rows (parts.bind (·[0]?)) order <;> rfl
  rw [workflowCheckpointWithGroupParts, hgroups, hgroup]
  simp only [Except.map, bind, Except.bind, pure, Except.pure, List.flatMap_singleton]
  change Except.ok (sealCheckpoint hashes nodeId
    ⟨takeOver previous _ _ (scratchDigests hashes rows).membership,
      takeOver previous _ _ (scratchDigests hashes rows).order,
      takeOver previous _ _ (scratchDigests hashes rows).temporal,
      takeOver previous _ _ (scratchDigests hashes rows).classification⟩ _ _) = _
  rw [takeOver_eq fun state hstate => (hprevious state hstate).1,
    takeOver_eq fun state hstate => (hprevious state hstate).2.1,
    takeOver_eq fun state hstate => (hprevious state hstate).2.2.1,
    takeOver_eq fun state hstate => (hprevious state hstate).2.2.2]
  rfl

theorem workflowCheckpoint_eq (hashes : Hashes) (nodeId : String) (rows : List CheckpointRow)
    (payloads : List Payload) :
    workflowCheckpoint hashes nodeId [("rows", rows)] payloads =
      .ok (scratchCheckpoint hashes nodeId rows payloads) :=
  workflowCheckpointWithGroupParts_eq (fun _ h => nomatch h) (fun _ h => nomatch h)
    fun _ h => nomatch h

end Scratch

/-! ## What may be taken over -/

section TakeOver

variable {hashes : Hashes} {rows previousRows : List CheckpointRow}

/-- Fingerprints of identities do not collide among the rows at hand. -/
def CollisionFree (hashes : Hashes) (rows : List CheckpointRow) : Prop :=
  ∀ first ∈ rows, ∀ second ∈ rows,
    hashes.xxh3 (encodeIdentity first) = hashes.xxh3 (encodeIdentity second) →
      encodeIdentity first = encodeIdentity second

/-- One part of every row of a table. -/
def column (hashes : Hashes) (select : RowCheckpointParts → List UInt8) (rows : List CheckpointRow) :
    List (List UInt8) :=
  (rowCheckpointPartsForRows hashes rows).map select

/-- Equal identities, place by place, leave the rows in the same canonical order. -/
theorem identityOrder_eq_of_identities (hfits : ∀ row ∈ rows ++ previousRows, row.Fits)
    (hfree : CollisionFree hashes (rows ++ previousRows))
    (h : column hashes RowCheckpointParts.identity rows =
      column hashes RowCheckpointParts.identity previousRows) :
    identityOrder rows = identityOrder previousRows := by
  refine identityOrder_congr ?_
  have hlength : rows.length = previousRows.length := by
    have := congrArg List.length h
    simpa [column, rowCheckpointPartsForRows] using this
  refine List.ext_getElem (by simpa using hlength) fun position hleft hright => ?_
  rw [List.length_map] at hleft hright
  have hidentity : hashes.xxh3 (encodeIdentity rows[position]) =
      hashes.xxh3 (encodeIdentity previousRows[position]) := by
    have := congrArg (·[position]?) h
    simpa [column, rowCheckpointPartsForRows, rowCheckpointParts,
      List.getElem?_eq_getElem hleft, List.getElem?_eq_getElem hright] using this
  have hrow : rows[position] ∈ rows ++ previousRows :=
    List.mem_append_left previousRows (List.getElem_mem hleft)
  have hprevious : previousRows[position] ∈ rows ++ previousRows :=
    List.mem_append_right rows (List.getElem_mem hright)
  obtain ⟨hsources, hindex⟩ := encodeIdentity_inj (hfits _ hrow) (hfits _ hprevious)
    (hfree _ hrow _ hprevious hidentity)
  rw [List.getElem_map, List.getElem_map, CheckpointRow.canonicalKey, CheckpointRow.canonicalKey,
    hsources, hindex]

/-- With equal identities, the digests of equal columns are equal. -/
theorem scratchDigests_agree (hfits : ∀ row ∈ rows ++ previousRows, row.Fits)
    (hfree : CollisionFree hashes (rows ++ previousRows))
    (h : column hashes RowCheckpointParts.identity rows =
      column hashes RowCheckpointParts.identity previousRows) :
    (scratchDigests hashes previousRows).membership = (scratchDigests hashes rows).membership ∧
    (scratchDigests hashes previousRows).order = (scratchDigests hashes rows).order ∧
    (column hashes RowCheckpointParts.temporal rows =
        column hashes RowCheckpointParts.temporal previousRows →
      (scratchDigests hashes previousRows).temporal = (scratchDigests hashes rows).temporal) ∧
    (column hashes RowCheckpointParts.classification rows =
        column hashes RowCheckpointParts.classification previousRows →
      (scratchDigests hashes previousRows).classification =
        (scratchDigests hashes rows).classification) := by
  have horder := identityOrder_eq_of_identities hfits hfree h
  have hlength : rows.length = previousRows.length := by
    have := congrArg List.length h
    simpa [column, rowCheckpointPartsForRows] using this
  unfold column at h
  refine ⟨?_, ?_, fun htemporal => ?_, fun hclassification => ?_⟩
  · simp only [scratchDigests, horder, hlength, h]
  · simp only [scratchDigests, hlength, h]
  · unfold column at htemporal
    simp only [scratchDigests, horder, hlength, htemporal]
  · unfold column at hclassification
    simp only [scratchDigests, horder, hlength, hclassification]

theorem zip_all_iff {parts previousParts : List RowCheckpointParts}
    {select : RowCheckpointParts → List UInt8} (hlength : parts.length = previousParts.length) :
    (parts.zip previousParts).all (fun pair => select pair.1 = select pair.2) = true ↔
      parts.map select = previousParts.map select := by
  induction parts generalizing previousParts with
  | nil => simp [List.eq_nil_of_length_eq_zero hlength.symm]
  | cons part parts ih =>
      cases previousParts with
      | nil => exact absurd hlength (Nat.succ_ne_zero _)
      | cons previous previousParts => simp [ih (Nat.succ.inj hlength)]

/-- Components are reusable when their columns agree, and identities besides. -/
structure Compares (parts previousParts : List RowCheckpointParts)
    (components : ReusableComponents) : Prop where
  membership : components.membership = true →
    parts.map RowCheckpointParts.identity = previousParts.map RowCheckpointParts.identity
  order : components.order = true → components.membership = true
  temporal : components.temporal = true → components.membership = true ∧
    parts.map RowCheckpointParts.temporal = previousParts.map RowCheckpointParts.temporal
  classification : components.classification = true → components.membership = true ∧
    parts.map RowCheckpointParts.classification =
      previousParts.map RowCheckpointParts.classification

theorem compares_fromParts (parts previousParts : List RowCheckpointParts) :
    Compares parts previousParts (reusableRowComponentsFromParts parts previousParts) := by
  by_cases hlength : parts.length = previousParts.length
  · refine ⟨fun h => ?_, id, fun h => ?_, fun h => ?_⟩
    · simp only [reusableRowComponentsFromParts, Bool.and_eq_true] at h
      exact (zip_all_iff hlength).mp h.2
    · simp only [reusableRowComponentsFromParts, Bool.and_eq_true] at h ⊢
      exact ⟨h.1, (zip_all_iff hlength).mp h.2⟩
    · simp only [reusableRowComponentsFromParts, Bool.and_eq_true] at h ⊢
      exact ⟨h.1, (zip_all_iff hlength).mp h.2⟩
  · constructor <;> simp [reusableRowComponentsFromParts, hlength]

/-- The loop over the previous rows compares their parts. -/
theorem compareRows_eq (hashes : Hashes) (sameTemporal sameClassification : Bool)
    (parts : List RowCheckpointParts) (rows : List CheckpointRow) :
    compareRows hashes sameTemporal sameClassification (parts.zip rows) =
      if (parts.zip (rowCheckpointPartsForRows hashes rows)).all fun pair =>
        pair.1.identity = pair.2.identity
      then
        ⟨true, true,
          sameTemporal && (parts.zip (rowCheckpointPartsForRows hashes rows)).all fun pair =>
            pair.1.temporal = pair.2.temporal,
          sameClassification && (parts.zip (rowCheckpointPartsForRows hashes rows)).all fun pair =>
            pair.1.classification = pair.2.classification⟩
      else ⟨false, false, false, false⟩ := by
  induction parts generalizing rows sameTemporal sameClassification with
  | nil => simp [compareRows]
  | cons part parts ih =>
      cases rows with
      | nil => simp [compareRows, rowCheckpointPartsForRows]
      | cons row rows =>
          have hrest := ih (sameTemporal && decide (part.temporal =
            (rowCheckpointParts hashes row).temporal)) (sameClassification &&
              decide (part.classification = (rowCheckpointParts hashes row).classification)) rows
          rw [List.zip_cons_cons, compareRows]
          by_cases hidentity : part.identity = (rowCheckpointParts hashes row).identity
          · simp only [hidentity, ne_eq, not_true_eq_false, if_false, hrest]
            simp only [rowCheckpointPartsForRows, List.map_cons, List.zip_cons_cons, List.all_cons,
              hidentity, decide_true, Bool.true_and, Bool.and_assoc]
          · simp [rowCheckpointPartsForRows, hidentity]

theorem reusableRowComponentsFromRows_eq (hashes : Hashes) (parts : List RowCheckpointParts)
    (rows : List CheckpointRow) :
    reusableRowComponentsFromRows hashes parts rows =
      reusableRowComponentsFromParts parts (rowCheckpointPartsForRows hashes rows) := by
  have hcount : (rowCheckpointPartsForRows hashes rows).length = rows.length := List.length_map _
  unfold reusableRowComponentsFromRows reusableRowComponentsFromParts
  by_cases hlength : parts.length = rows.length
  · rw [if_neg (not_not.mpr hlength), compareRows_eq]
    split
    · next hidentity => simp [hcount, hlength, hidentity]
    · next hidentity => simp [hcount, hlength, hidentity]
  · simp [hcount, hlength]

/-- A previous checkpoint from scratch, with components that compare its table with the current
one, may be used. -/
theorem reusable_of_compares {previousNodeId : String} {previousPayloads : List Payload}
    {components : ReusableComponents} (hfits : ∀ row ∈ rows ++ previousRows, row.Fits)
    (hfree : CollisionFree hashes (rows ++ previousRows))
    (h : Compares (rowCheckpointPartsForRows hashes rows)
      (rowCheckpointPartsForRows hashes previousRows) components) :
    Reusable hashes rows
      ⟨scratchCheckpoint hashes previousNodeId previousRows previousPayloads, components⟩ := by
  have hagree := fun hmembership => scratchDigests_agree hfits hfree (h.membership hmembership)
  refine ⟨fun hmembership => (hagree hmembership).1,
    fun horder => (hagree (h.order horder)).2.1, fun htemporal => ?_, fun hclassification => ?_⟩
  · obtain ⟨hmembership, hcolumn⟩ := h.temporal htemporal
    exact (hagree hmembership).2.2.1 hcolumn
  · obtain ⟨hmembership, hcolumn⟩ := h.classification hclassification
    exact (hagree hmembership).2.2.2 hcolumn

end TakeOver

/-! ## The entries -/

/-- Every entry that reuses a previous checkpoint, or a canonical order, returns the checkpoint from
scratch. -/
structure ReuseIsExact (hashes : Hashes) (nodeId : String) (rows previousRows : List CheckpointRow)
    (payloads previousPayloads : List Payload) (previous : WorkflowCheckpoint) : Prop where
  reusableParts : workflowCheckpointWithReusableParts hashes nodeId rows payloads
      (rowCheckpointPartsForRows hashes rows) (rowCheckpointPartsForRows hashes previousRows)
      previous = workflowCheckpoint hashes nodeId [("rows", rows)] payloads
  reusableRows : workflowCheckpointWithReusableRows hashes nodeId rows payloads
      (rowCheckpointPartsForRows hashes rows) previousRows previous =
    workflowCheckpoint hashes nodeId [("rows", rows)] payloads
  knownMembershipAndOrder :
    column hashes RowCheckpointParts.identity rows =
        column hashes RowCheckpointParts.identity previousRows →
      workflowCheckpointWithKnownMembershipAndOrder hashes nodeId rows payloads previous =
        workflowCheckpoint hashes nodeId [("rows", rows)] payloads
  exactRowState : rows = previousRows →
    .ok (checkpointForExactRowState hashes nodeId previous payloads) =
      workflowCheckpoint hashes nodeId [("rows", rows)] payloads
  exactState : rows = previousRows → payloads = previousPayloads →
    .ok (checkpointForExactState hashes nodeId previous) =
      workflowCheckpoint hashes nodeId [("rows", rows)] payloads
  canonicalOrder : ∀ order, IsCanonicalOrder rows order →
    workflowRowsCheckpointWithPartsAndCanonicalOrder hashes nodeId rows
        (rowCheckpointPartsForRows hashes rows) order =
      workflowCheckpoint hashes nodeId [("rows", rows)] []
  orderAndParts : ∀ order, IsCanonicalOrder rows order →
    workflowCheckpointWithGroupParts hashes nodeId [("rows", rows)] payloads
        (some [rowCheckpointPartsForRows hashes rows])
        (some ⟨previous, reusableRowComponentsFromParts (rowCheckpointPartsForRows hashes rows)
          (rowCheckpointPartsForRows hashes previousRows)⟩) (some order) =
      workflowCheckpoint hashes nodeId [("rows", rows)] payloads

/-- Reuse is exact for a previous checkpoint from scratch, if the fingerprints of the identities at
hand do not collide. -/
theorem reuse_is_exact (hashes : Hashes) (nodeId previousNodeId : String)
    (rows previousRows : List CheckpointRow) (payloads previousPayloads : List Payload)
    (previous : WorkflowCheckpoint) (hfits : ∀ row ∈ rows ++ previousRows, row.Fits)
    (hfree : CollisionFree hashes (rows ++ previousRows))
    (hprevious : workflowCheckpoint hashes previousNodeId [("rows", previousRows)]
      previousPayloads = .ok previous) :
    ReuseIsExact hashes nodeId rows previousRows payloads previousPayloads previous := by
  rw [workflowCheckpoint_eq] at hprevious
  obtain rfl := Except.ok.inj hprevious
  -- equal hashes of two rows that fit mean equal rows, so what is reused is what is computed
  have hfromParts : Reusable hashes rows
      ⟨scratchCheckpoint hashes previousNodeId previousRows previousPayloads,
        reusableRowComponentsFromParts (rowCheckpointPartsForRows hashes rows)
          (rowCheckpointPartsForRows hashes previousRows)⟩ :=
    reusable_of_compares hfits hfree (compares_fromParts _ _)
  have hparts : ∀ given ∈ some [rowCheckpointPartsForRows hashes rows],
      given = [rowCheckpointPartsForRows hashes rows] := fun _ h => (Option.some.inj h).symm
  constructor
  case reusableParts =>
    rw [workflowCheckpoint_eq]
    exact workflowCheckpointWithGroupParts_eq hparts
      (fun _ h => Option.some.inj h ▸ hfromParts) fun _ h => nomatch h
  case reusableRows =>
    rw [workflowCheckpoint_eq, workflowCheckpointWithReusableRows,
      reusableRowComponentsFromRows_eq]
    exact workflowCheckpointWithGroupParts_eq hparts
      (fun _ h => Option.some.inj h ▸ hfromParts) fun _ h => nomatch h
  case knownMembershipAndOrder =>
    intro hidentity
    have hknown : Compares (rowCheckpointPartsForRows hashes rows)
        (rowCheckpointPartsForRows hashes previousRows) ⟨true, true, false, false⟩ :=
      ⟨fun _ => hidentity, fun _ => rfl, (nomatch ·), (nomatch ·)⟩
    rw [workflowCheckpoint_eq]
    exact workflowCheckpointWithGroupParts_eq (fun _ h => nomatch h)
      (fun _ h => Option.some.inj h ▸ reusable_of_compares hfits hfree hknown) fun _ h => nomatch h
  case exactRowState =>
    rintro rfl
    rw [workflowCheckpoint_eq]
    rfl
  case exactState =>
    rintro rfl rfl
    rw [workflowCheckpoint_eq]
    rfl
  case canonicalOrder =>
    intro order horder
    rw [workflowCheckpoint_eq]
    exact workflowCheckpointWithGroupParts_eq hparts (fun _ h => nomatch h)
      fun _ h => Option.some.inj h ▸ horder.eq
  case orderAndParts =>
    intro order horder
    rw [workflowCheckpoint_eq]
    exact workflowCheckpointWithGroupParts_eq hparts
      (fun _ h => Option.some.inj h ▸ hfromParts) fun _ h => Option.some.inj h ▸ horder.eq

/-! ## Reuse that is not exact -/

/-- Fingerprints that keep all bytes. -/
def verbatimHashes : Hashes := ⟨id, id⟩

/-- Two rows of one source and one index that differ in their temporal columns. -/
def tiedRows : List CheckpointRow :=
  [{ sourceDataRows := [⟨1, 1⟩], temporal := [0] }, { sourceDataRows := [⟨1, 1⟩], temporal := [1] }]

/-- With other payloads the exact state is not the checkpoint from scratch, and neither is the
checkpoint of a sorted order that turns tied rows around. -/
theorem reuse_not_exact :
    (∀ previous, workflowCheckpoint verbatimHashes "previous" [("rows", [])] [] = .ok previous →
      .ok (checkpointForExactState verbatimHashes "current" previous) ≠
        workflowCheckpoint verbatimHashes "current" [("rows", [])] [("value", [1])]) ∧
    ([1, 0].Pairwise fun first second => keyAt tiedRows first ≤ keyAt tiedRows second) ∧
    workflowRowsCheckpointWithPartsAndCanonicalOrder verbatimHashes "current" tiedRows
        (rowCheckpointPartsForRows verbatimHashes tiedRows) [1, 0] ≠
      workflowCheckpoint verbatimHashes "current" [("rows", tiedRows)] [] := by
  refine ⟨fun previous hprevious heq => ?_, by decide, fun heq => ?_⟩
  · rw [workflowCheckpoint_eq] at hprevious heq
    obtain rfl := Except.ok.inj hprevious
    have hpayload : payloadDigest verbatimHashes [] = payloadDigest verbatimHashes [("value", [1])] :=
      congrArg WorkflowCheckpoint.payloadDigest (Except.ok.inj heq)
    exact absurd hpayload (by decide +kernel)
  · have htemporal := congrArg (Except.map WorkflowCheckpoint.temporalStateDigest) heq
    rw [workflowCheckpoint_eq] at htemporal
    exact absurd htemporal (by decide +kernel)

theorem tiedRows_fit : ∀ row ∈ tiedRows ++ tiedRows.reverse, row.Fits := by
  intro row hrow
  simp only [tiedRows, List.reverse_cons, List.reverse_nil, List.nil_append, List.cons_append,
    List.mem_cons, List.not_mem_nil, or_false] at hrow
  rcases hrow with rfl | rfl | rfl | rfl
  all_goals exact ⟨by decide, by decide, by decide⟩

/-- Exactness at the tied rows, after a table that had them the other way round. -/
theorem reuse_is_exact_tied :
    ReuseIsExact verbatimHashes "current" tiedRows tiedRows.reverse [] [("value", [1])]
      (scratchCheckpoint verbatimHashes "previous" tiedRows.reverse [("value", [1])]) :=
  reuse_is_exact verbatimHashes "current" "previous" tiedRows tiedRows.reverse [] [("value", [1])]
    _ tiedRows_fit (fun _ _ _ _ h => h) (workflowCheckpoint_eq _ _ _ _)

end Chronicle.Checkpoint
