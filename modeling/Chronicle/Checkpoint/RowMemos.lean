import Chronicle.Checkpoint.RowCodes

/-!
# Memoised fingerprints

Rows share allocations, and each allocation keeps the fingerprints that were formed of its data. An
edit works on an allocation of its own and drops the fingerprints of the buckets that it hands out.
-/

namespace Chronicle.Checkpoint

open Chronicle.Library Chronicle.Library.Bytes

/-! ## One allocation -/

/-- `RowCheckpointCache` -/
structure RowCheckpointCache where
  identity : Option (List UInt8) := none
  temporal : Option (List UInt8) := none
  classification : Option (List UInt8) := none

/-- `RowInner` -/
structure RowInner where
  data : RowData
  checkpointParts : RowCheckpointCache := {}

/-- What is written through the view that `edit_identity`, `edit_temporal`, `edit_classification` or
`edit_all` hands out. -/
inductive Edit where
  | identity (write : RowIdentityView → RowIdentityView)
  | temporal (write : RowTemporalView → RowTemporalView)
  | classification (write : RowClassificationView → RowClassificationView)
  | all (write : RowData → RowData)

/-- What `edit_components` drops of the cache. -/
def RowCheckpointCache.drop (cache : RowCheckpointCache) (identity temporal classification : Bool) :
    RowCheckpointCache where
  identity := if identity then none else cache.identity
  temporal := if temporal then none else cache.temporal
  classification := if classification then none else cache.classification

/-- The allocation after the edit. -/
def RowInner.edit (inner : RowInner) : Edit → RowInner
  | .identity write =>
      { data := { inner.data with toRowIdentityView := write inner.data.toRowIdentityView }
        checkpointParts := inner.checkpointParts.drop true false false }
  | .temporal write =>
      { data := { inner.data with toRowTemporalView := write inner.data.toRowTemporalView }
        checkpointParts := inner.checkpointParts.drop false true false }
  | .classification write =>
      { data :=
          { inner.data with
            toRowClassificationView := write inner.data.toRowClassificationView }
        checkpointParts := inner.checkpointParts.drop false false true }
  | .all write =>
      { data := write inner.data
        checkpointParts := inner.checkpointParts.drop true true true }

/-- `compute_parts`: the missing fingerprints are formed and kept. -/
def RowInner.computeParts (hashes : Hashes) (inner : RowInner) :
    Option (RowInner × RowCheckpointParts) :=
  match inner.checkpointParts with
  | ⟨some identity, some temporal, some classification⟩ =>
      some (inner, ⟨identity, temporal, classification⟩)
  | cache => do
      let row ← encodeRowCheckpointParts inner.data
      let formed := rowCheckpointParts hashes row
      let parts : RowCheckpointParts :=
        ⟨cache.identity.getD formed.identity, cache.temporal.getD formed.temporal,
          cache.classification.getD formed.classification⟩
      return (⟨inner.data, some parts.identity, some parts.temporal, some parts.classification⟩,
        parts)

/-- Every kept fingerprint is that of the data. -/
structure RowInner.Coherent (hashes : Hashes) (inner : RowInner) : Prop where
  identity : ∀ kept ∈ inner.checkpointParts.identity,
    kept = hashes.xxh3 (encodeIdentity inner.data.identityRow)
  temporal : ∀ kept ∈ inner.checkpointParts.temporal,
    kept = hashes.xxh3 (encodeTemporal inner.data)
  classification : ∀ kept ∈ inner.checkpointParts.classification,
    ∃ row, encodeRowCheckpointParts inner.data = some row ∧ kept = hashes.xxh3 row.classification

variable {hashes : Hashes} {inner : RowInner}

theorem RowInner.Coherent.of_data (data : RowData) : RowInner.Coherent hashes { data } :=
  ⟨nofun, nofun, nofun⟩

/-- An edit of one bucket leaves what the other fingerprints are formed of. -/
theorem RowInner.Coherent.edit (h : inner.Coherent hashes) (e : Edit) :
    (inner.edit e).Coherent hashes := by
  cases e with
  | identity write =>
      refine ⟨nofun, h.temporal, fun kept hkept => ?_⟩
      obtain ⟨row, hrow, rfl⟩ := h.classification kept hkept
      obtain ⟨provenance, hprovenance, rfl⟩ := Option.map_eq_some_iff.mp hrow
      exact ⟨_, Option.map_eq_some_iff.mpr ⟨provenance, hprovenance, rfl⟩, rfl⟩
  | temporal write =>
      refine ⟨h.identity, nofun, fun kept hkept => ?_⟩
      obtain ⟨row, hrow, rfl⟩ := h.classification kept hkept
      obtain ⟨provenance, hprovenance, rfl⟩ := Option.map_eq_some_iff.mp hrow
      exact ⟨_, Option.map_eq_some_iff.mpr ⟨provenance, hprovenance, rfl⟩, rfl⟩
  | classification write => exact ⟨h.identity, h.temporal, nofun⟩
  | all write => exact ⟨nofun, nofun, nofun⟩

/-- The fingerprints of the data, as they are formed anew. -/
def RowData.parts (hashes : Hashes) (data : RowData) : Option RowCheckpointParts :=
  (encodeRowCheckpointParts data).map (rowCheckpointParts hashes)

theorem getD_eq_of_forall_mem {α : Type} {kept : Option α} {x : α} (h : ∀ y ∈ kept, y = x) :
    kept.getD x = x := by
  cases kept with
  | none => rfl
  | some y => exact h y rfl

/-- A computation keeps the fingerprints of the data, and returns them when they are kept or the
data can be encoded. -/
theorem RowInner.Coherent.computeParts (h : inner.Coherent hashes) {later : RowInner}
    {parts : RowCheckpointParts} (hparts : inner.computeParts hashes = some (later, parts)) :
    later.data = inner.data ∧ later.Coherent hashes ∧ inner.data.parts hashes = some parts := by
  rw [RowInner.computeParts] at hparts
  split at hparts
  · -- all three parts were kept
    next identity temporal classification hcache =>
      cases hparts
      obtain ⟨row, hrow, hclassification⟩ := h.classification classification (by rw [hcache]; rfl)
      have hidentity := h.identity identity (by rw [hcache]; rfl)
      have htemporal := h.temporal temporal (by rw [hcache]; rfl)
      refine ⟨rfl, h, ?_⟩
      rw [RowData.parts, hrow, hidentity, htemporal, hclassification]
      obtain ⟨_, _, rfl⟩ := Option.map_eq_some_iff.mp hrow
      rfl
  · next hcache =>
      obtain ⟨row, hrow, hresult⟩ := Option.bind_eq_some_iff.mp hparts
      cases hresult
      -- a kept part is the one that would be computed
      have hidentity : inner.checkpointParts.identity.getD (hashes.xxh3 (encodeIdentity row)) =
          hashes.xxh3 (encodeIdentity row) := by
        obtain ⟨_, _, rfl⟩ := Option.map_eq_some_iff.mp hrow
        exact getD_eq_of_forall_mem h.identity
      have htemporal : inner.checkpointParts.temporal.getD (hashes.xxh3 row.temporal) =
          hashes.xxh3 row.temporal := by
        obtain ⟨_, _, rfl⟩ := Option.map_eq_some_iff.mp hrow
        exact getD_eq_of_forall_mem h.temporal
      have hclassification : inner.checkpointParts.classification.getD
          (hashes.xxh3 row.classification) = hashes.xxh3 row.classification := by
        refine getD_eq_of_forall_mem fun kept hkept => ?_
        obtain ⟨row', hrow', hkept⟩ := h.classification kept hkept
        rw [hrow, Option.some.injEq] at hrow'
        rw [hkept, hrow']
      simp only [rowCheckpointParts, hidentity, htemporal, hclassification]
      refine ⟨trivial, ⟨?_, ?_, ?_⟩, ?_⟩
      · intro kept hkept
        obtain ⟨_, _, rfl⟩ := Option.map_eq_some_iff.mp hrow
        exact (Option.some.inj hkept).symm
      · intro kept hkept
        obtain ⟨_, _, rfl⟩ := Option.map_eq_some_iff.mp hrow
        exact (Option.some.inj hkept).symm
      · intro kept hkept
        exact ⟨row, hrow, (Option.some.inj hkept).symm⟩
      · rw [RowData.parts, hrow]
        rfl

/-- The fingerprints are returned wherever the data can be encoded. -/
theorem RowInner.exists_computeParts {row : CheckpointRow}
    (h : encodeRowCheckpointParts inner.data = some row) :
    ∃ later parts, inner.computeParts hashes = some (later, parts) := by
  rw [RowInner.computeParts]
  split
  · exact ⟨_, _, rfl⟩
  · rw [h]
    exact ⟨_, _, rfl⟩

/-! ## Rows that share allocations -/

/-- The allocations, and the rows as the allocations that they point to. -/
structure Rows where
  cells : List RowInner := []
  handles : List Nat := []

/-- What is done with rows; a row is named by its position. -/
inductive RowOp where
  | create (data : RowData)
  | clone (row : Nat)
  | release (row : Nat)
  | edit (row : Nat) (e : Edit)
  | computeParts (row : Nat)

/-- The allocation of a row. -/
def Rows.inner? (rows : Rows) (row : Nat) : Option RowInner := do
  let address ← rows.handles[row]?
  rows.cells[address]?

/-- `edit_components` and the writes through its view; `Arc::make_mut` clones an allocation that
other rows share. -/
def Rows.edit (rows : Rows) (row : Nat) (e : Edit) : Option Rows := do
  let address ← rows.handles[row]?
  let inner ← rows.cells[address]?
  if rows.handles.count address = 1 then
    return { rows with cells := rows.cells.set address (inner.edit e) }
  else
    return { cells := rows.cells ++ [inner.edit e]
             handles := rows.handles.set row rows.cells.length }

/-- One operation; `none` where it panics or there is no such row. -/
def Rows.step (hashes : Hashes) (rows : Rows) : RowOp → Option Rows
  | .create data =>
      some { cells := rows.cells ++ [{ data }]
             handles := rows.handles ++ [rows.cells.length] }
  | .clone row => do
      let address ← rows.handles[row]?
      return { rows with handles := rows.handles ++ [address] }
  | .release row => some { rows with handles := rows.handles.eraseIdx row }
  | .edit row e => rows.edit row e
  | .computeParts row => do
      let address ← rows.handles[row]?
      let inner ← rows.cells[address]?
      let (later, _) ← inner.computeParts hashes
      return { rows with cells := rows.cells.set address later }

/-- A sequence of operations. -/
def Rows.run (hashes : Hashes) (rows : Rows) : List RowOp → Option Rows
  | [] => some rows
  | op :: ops => do
      let later ← rows.step hashes op
      later.run hashes ops

/-- The kept fingerprints of every allocation are those of its data. -/
def Rows.Coherent (hashes : Hashes) (rows : Rows) : Prop :=
  ∀ inner ∈ rows.cells, inner.Coherent hashes

variable {rows later : Rows}

theorem Rows.Coherent.set (h : rows.Coherent hashes) {address : Nat} {inner : RowInner}
    (hinner : inner.Coherent hashes) {handles : List Nat} :
    Rows.Coherent hashes ⟨rows.cells.set address inner, handles⟩ := by
  intro cell hcell
  obtain hold | rfl := List.mem_or_eq_of_mem_set hcell
  · exact h cell hold
  · exact hinner

theorem Rows.Coherent.append (h : rows.Coherent hashes) {inner : RowInner}
    (hinner : inner.Coherent hashes) {handles : List Nat} :
    Rows.Coherent hashes ⟨rows.cells ++ [inner], handles⟩ := by
  intro cell hcell
  obtain hold | hnew := List.mem_append.mp hcell
  · exact h cell hold
  · rw [List.mem_singleton.mp hnew]
    exact hinner

theorem Rows.Coherent.step (h : rows.Coherent hashes) {op : RowOp}
    (hstep : rows.step hashes op = some later) : later.Coherent hashes := by
  cases op with
  | create data =>
      cases hstep
      exact h.append (.of_data data)
  | clone row =>
      obtain ⟨address, _, hlater⟩ := Option.bind_eq_some_iff.mp hstep
      cases hlater
      exact h
  | release row =>
      cases hstep
      exact h
  | edit row e =>
      obtain ⟨address, _, hstep⟩ := Option.bind_eq_some_iff.mp hstep
      obtain ⟨inner, hinner, hstep⟩ := Option.bind_eq_some_iff.mp hstep
      have hedited := (h inner (List.mem_of_getElem? hinner)).edit e
      split at hstep
      · cases hstep
        exact h.set hedited
      · cases hstep
        exact h.append hedited
  | computeParts row =>
      obtain ⟨address, _, hstep⟩ := Option.bind_eq_some_iff.mp hstep
      obtain ⟨inner, hinner, hstep⟩ := Option.bind_eq_some_iff.mp hstep
      obtain ⟨⟨formed, parts⟩, hparts, hlater⟩ := Option.bind_eq_some_iff.mp hstep
      cases hlater
      exact h.set ((h inner (List.mem_of_getElem? hinner)).computeParts hparts).2.1

theorem Rows.Coherent.run (h : rows.Coherent hashes) {ops : List RowOp}
    (hrun : rows.run hashes ops = some later) : later.Coherent hashes := by
  induction ops generalizing rows with
  | nil =>
      cases hrun
      exact h
  | cons op ops ih =>
      obtain ⟨next, hstep, hrun⟩ := Option.bind_eq_some_iff.mp hrun
      exact ih (h.step hstep) hrun

/-- What the fingerprints of the data are formed of. -/
def RowData.encodings (data : RowData) : List (List UInt8) :=
  (encodeRowCheckpointParts data).elim [] fun row =>
    [encodeIdentity row, row.temporal, row.classification]

/-- Data that agree have equal fingerprints, and only such data when the fingerprints do not
collide. -/
theorem parts_eq_iff_agrees {a b : RowData} (ha : a.CompletionWhereExpected)
    (hb : b.CompletionWhereExpected)
    (hfree : ∀ x ∈ a.encodings, ∀ y ∈ b.encodings, hashes.xxh3 x = hashes.xxh3 y → x = y) :
    a.parts hashes = b.parts hashes ↔ a.Agrees b := by
  obtain ⟨first, hfirst⟩ := exists_encodeRowCheckpointParts ha
  obtain ⟨second, hsecond⟩ := exists_encodeRowCheckpointParts hb
  have hencodings : a.encodings = [encodeIdentity first, first.temporal, first.classification] := by
    rw [RowData.encodings, hfirst, Option.elim_some]
  have hencodings' :
      b.encodings = [encodeIdentity second, second.temporal, second.classification] := by
    rw [RowData.encodings, hsecond, Option.elim_some]
  rw [agrees_iff_encode ha hb hfirst hsecond, RowData.parts, RowData.parts, hfirst, hsecond,
    Option.map_some, Option.map_some, Option.some.injEq, rowCheckpointParts, rowCheckpointParts,
    RowCheckpointParts.mk.injEq]
  rw [hencodings, hencodings'] at hfree
  constructor
  · rintro ⟨hidentity, htemporal, hclassification⟩
    exact ⟨hfree _ (by simp) _ (by simp) hidentity, hfree _ (by simp) _ (by simp) htemporal,
      hfree _ (by simp) _ (by simp) hclassification⟩
  · rintro ⟨hidentity, htemporal, hclassification⟩
    rw [hidentity, htemporal, hclassification]
    exact ⟨rfl, rfl, rfl⟩

theorem Rows.mem_cells_of_inner? {row : Nat} (h : rows.inner? row = some inner) :
    inner ∈ rows.cells := by
  obtain ⟨address, _, hcell⟩ := Option.bind_eq_some_iff.mp h
  exact List.mem_of_getElem? hcell

/-- After any operations, two rows have equal fingerprints exactly when their data agree. -/
theorem computeParts_eq_iff_agrees {ops : List RowOp}
    (hrun : ({} : Rows).run hashes ops = some rows) {first second : Nat} {a b : RowInner}
    (hfirst : rows.inner? first = some a) (hsecond : rows.inner? second = some b)
    (ha : a.data.CompletionWhereExpected) (hb : b.data.CompletionWhereExpected)
    (hfree : ∀ x ∈ a.data.encodings, ∀ y ∈ b.data.encodings, hashes.xxh3 x = hashes.xxh3 y → x = y) :
    ∃ later later' parts parts', a.computeParts hashes = some (later, parts) ∧
      b.computeParts hashes = some (later', parts') ∧
      (parts = parts' ↔ a.data.Agrees b.data) := by
  have hempty : ({} : Rows).Coherent hashes := fun _ hcell => absurd hcell List.not_mem_nil
  have hcoherent := hempty.run hrun
  obtain ⟨row, hrow⟩ := exists_encodeRowCheckpointParts ha
  obtain ⟨row', hrow'⟩ := exists_encodeRowCheckpointParts hb
  obtain ⟨later, parts, hparts⟩ : ∃ later parts, a.computeParts hashes = some (later, parts) :=
    RowInner.exists_computeParts hrow
  obtain ⟨later', parts', hparts'⟩ : ∃ later parts, b.computeParts hashes = some (later, parts) :=
    RowInner.exists_computeParts hrow'
  refine ⟨later, later', parts, parts', hparts, hparts', ?_⟩
  have hformed := ((hcoherent a (Rows.mem_cells_of_inner? hfirst)).computeParts hparts).2.2
  have hformed' := ((hcoherent b (Rows.mem_cells_of_inner? hsecond)).computeParts hparts').2.2
  rw [← parts_eq_iff_agrees ha hb hfree, hformed, hformed', Option.some.injEq]

/-- Fingerprints that are the encodings themselves. -/
def plainHashes : Hashes := ⟨fun bytes => bytes, fun bytes => bytes⟩

/-- A row is created and its fingerprints are formed; a clone of it is edited. -/
def editedClone : List RowOp :=
  [.create {}, .computeParts 0, .clone 0,
    .edit 1 (.classification fun view => { view with usageSessionId := some 7 })]

theorem computeParts_editedClone :
    ∃ rows a b later later' parts parts', ({} : Rows).run plainHashes editedClone = some rows ∧
      rows.inner? 0 = some a ∧ rows.inner? 1 = some b ∧
      a.computeParts plainHashes = some (later, parts) ∧
      b.computeParts plainHashes = some (later', parts') ∧
      (parts = parts' ↔ a.data.Agrees b.data) := by
  have hcompletion : ({} : RowData).CompletionWhereExpected := by
    simp [RowClassificationView.CompletionWhereExpected]
  obtain ⟨row, hrow⟩ := exists_encodeRowCheckpointParts hcompletion
  obtain ⟨later, parts, hparts⟩ :
      ∃ later parts, RowInner.computeParts plainHashes { data := {} } = some (later, parts) :=
    RowInner.exists_computeParts hrow
  have hdata := (RowInner.Coherent.computeParts (.of_data {}) hparts).1
  have hrun : ∃ rows a b, ({} : Rows).run plainHashes editedClone = some rows ∧
      rows.inner? 0 = some a ∧ rows.inner? 1 = some b ∧ a.data = {} ∧
      b.data = { usageSessionId := some 7 } := by
    refine ⟨⟨[later, later.edit (.classification fun view => { view with usageSessionId := some 7 })],
      [0, 1]⟩, later, _, ?_, rfl, rfl, hdata, ?_⟩
    · simp [editedClone, Rows.run, Rows.step, Rows.edit, hparts]
    · rw [RowInner.edit, hdata]
  obtain ⟨rows, a, b, hrun, hfirst, hsecond, ha, hb⟩ := hrun
  obtain ⟨later, later', parts, parts', h⟩ := computeParts_eq_iff_agrees hrun hfirst hsecond
    (by rw [ha]; simp [RowClassificationView.CompletionWhereExpected])
    (by rw [hb]; simp [RowClassificationView.CompletionWhereExpected]) (fun _ _ _ _ h => h)
  exact ⟨rows, a, b, later, later', parts, parts', hrun, hfirst, hsecond, h⟩

end Chronicle.Checkpoint
