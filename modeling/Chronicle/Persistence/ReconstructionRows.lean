import Chronicle.Checkpoint.Workflow
import Chronicle.Library.GreedyMatching
import Chronicle.Library.Stages

/-!
# The rows of a persisted reconstruction base

The annotation rows of a base are a part of its reconstruction rows, with other columns filled in.
They are persisted beside the rows they come from. Rows are told apart by fingerprints, which rows
of one source share.
-/

namespace Chronicle.Persistence

open Chronicle.Library Chronicle.Library.GreedyMatching Chronicle.Pipeline Chronicle.Checkpoint

/-- The columns that persistence reads of a row, and all others. -/
structure BaseRow (Columns : Type) where
  microUseClassification : Option MicroUseClassification := none
  minimumDurationQualified : Option Bool := none
  minimumDurationAggregateEligible : Bool := true
  minimumDurationBlankApplied : Bool := false
  concurrentSubintervalFloorBlankApplied : Bool := false
  durationSeconds : Option Binary64 := none
  durationMinutes : Option Binary64 := none
  columns : Columns
deriving DecidableEq

/-- `ReconstructionBase`: the rows, the annotation rows, and what is carried along with each. -/
structure ReconstructionBase (Columns Evidence Annotation : Type) where
  rows : List (BaseRow Columns)
  evidence : Evidence
  annotationRows : List (BaseRow Columns)
  annotation : Annotation

/-- `PersistedAnnotationRow` -/
inductive PersistedAnnotationRow (Columns : Type) where
  | reuse
  | replace (annotated : BaseRow Columns)
  | drop

/-- `PersistedReconstructionRow` -/
structure PersistedReconstructionRow (Columns : Type) where
  reconstruction : BaseRow Columns
  annotation : PersistedAnnotationRow Columns

/-- `PersistedReconstructionBase` -/
structure PersistedReconstructionBase (Columns Evidence Annotation : Type) where
  rowStates : List (PersistedReconstructionRow Columns)
  evidence : Evidence
  annotation : Annotation

variable {Columns Evidence Annotation : Type} (parts : BaseRow Columns → RowCheckpointParts)

/-- `same_row_identity` -/
def sameRowIdentity (left right : BaseRow Columns) : Bool :=
  (parts left).identity = (parts right).identity

/-- `foundational_state_differences` -/
def foundationalStateDifferences (reconstruction annotated : BaseRow Columns) : List String :=
  ([("micro_use_classification",
      decide (annotated.microUseClassification ≠ reconstruction.microUseClassification)),
    ("minimum_duration_qualified",
      decide (annotated.minimumDurationQualified ≠ reconstruction.minimumDurationQualified)),
    ("minimum_duration_aggregate_eligible", decide (annotated.minimumDurationAggregateEligible ≠
      reconstruction.minimumDurationAggregateEligible)),
    ("minimum_duration_blank_applied",
      decide (annotated.minimumDurationBlankApplied ≠ reconstruction.minimumDurationBlankApplied)),
    ("concurrent_subinterval_floor_blank_applied",
      decide (annotated.concurrentSubintervalFloorBlankApplied ≠
        reconstruction.concurrentSubintervalFloorBlankApplied))].filter Prod.snd).map Prod.fst

/-- `validate_annotation_blank_duration_projection` -/
def validateAnnotationBlankDurationProjection (annotated : BaseRow Columns) :
    Except String Unit :=
  if (annotated.minimumDurationBlankApplied || annotated.concurrentSubintervalFloorBlankApplied) &&
      (annotated.durationSeconds.isSome || annotated.durationMinutes.isSome) then
    .error "reconstruction_base_annotation_blank_duration_projection_mismatch"
  else .ok ()

/-- `validate_annotation_foundational_projection` -/
def validateAnnotationFoundationalProjection (reconstruction annotated : BaseRow Columns) :
    Except String Unit :=
  let differences := foundationalStateDifferences reconstruction annotated
  if differences ≠ [] then
    .error ("reconstruction_base_annotation_foundational_state_mismatch:" ++
      ",".intercalate differences)
  else validateAnnotationBlankDurationProjection annotated

/-- The annotation row may be that of the reconstruction row. -/
def mayAnnotate (annotated reconstruction : BaseRow Columns) : Bool :=
  sameRowIdentity parts reconstruction annotated &&
    (foundationalStateDifferences reconstruction annotated).isEmpty

/-- The walk over the reconstruction rows; returns the annotation rows that were not consumed. Rows
at one address have the same parts. -/
def persistRows : List (BaseRow Columns) → List (BaseRow Columns) →
    Except String (List (PersistedReconstructionRow Columns) × List (BaseRow Columns))
  | [], annotations => .ok ([], annotations)
  | reconstruction :: rows, [] => do
      let rest ← persistRows rows []
      return (⟨reconstruction, .drop⟩ :: rest.1, rest.2)
  | reconstruction :: rows, annotated :: annotations =>
      if mayAnnotate parts annotated reconstruction then do
        validateAnnotationBlankDurationProjection annotated
        let rest ← persistRows rows annotations
        let disposition :=
          if parts reconstruction = parts annotated then .reuse else .replace annotated
        return (⟨reconstruction, disposition⟩ :: rest.1, rest.2)
      else do
        let rest ← persistRows rows (annotated :: annotations)
        return (⟨reconstruction, .drop⟩ :: rest.1, rest.2)

/-- The loop that finds out why an annotation row was not consumed. -/
def diagnoseUnconsumed (unconsumed : BaseRow Columns) : List (BaseRow Columns) → Except String Unit
  | [] => .ok ()
  | reconstruction :: rows => do
      if sameRowIdentity parts reconstruction unconsumed then
        validateAnnotationFoundationalProjection reconstruction unconsumed
      diagnoseUnconsumed unconsumed rows

/-- `persist_reconstruction_base` -/
def persistReconstructionBase (base : ReconstructionBase Columns Evidence Annotation) :
    Except String (PersistedReconstructionBase Columns Evidence Annotation) := do
  let (rowStates, unconsumed) ← persistRows parts base.rows base.annotationRows
  match unconsumed with
  | [] => .ok ⟨rowStates, base.evidence, base.annotation⟩
  | first :: _ => do
      diagnoseUnconsumed parts first base.rows
      .error ("annotation rows are not an identity-preserving subsequence of reconstruction rows: " ++
        "matched " ++ toString (base.annotationRows.length - unconsumed.length) ++ " of " ++
        toString base.annotationRows.length)

/-- The loop of `restore_reconstruction_base`. -/
def restoreRows : List (PersistedReconstructionRow Columns) →
    Except String (List (BaseRow Columns) × List (BaseRow Columns))
  | [] => .ok ([], [])
  | ⟨reconstruction, .reuse⟩ :: states => do
      validateAnnotationFoundationalProjection reconstruction reconstruction
      let rest ← restoreRows states
      return (reconstruction :: rest.1, reconstruction :: rest.2)
  | ⟨reconstruction, .replace annotated⟩ :: states => do
      if !sameRowIdentity parts reconstruction annotated then
        .error "persisted annotation replacement changed row identity"
      validateAnnotationFoundationalProjection reconstruction annotated
      let rest ← restoreRows states
      return (reconstruction :: rest.1, annotated :: rest.2)
  | ⟨reconstruction, .drop⟩ :: states => do
      let rest ← restoreRows states
      return (reconstruction :: rest.1, rest.2)

/-- `restore_reconstruction_base` -/
def restoreReconstructionBase (persisted : PersistedReconstructionBase Columns Evidence Annotation) :
    Except String (ReconstructionBase Columns Evidence Annotation) := do
  let (rows, annotationRows) ← restoreRows parts persisted.rowStates
  .ok ⟨rows, persisted.evidence, annotationRows, persisted.annotation⟩

/-! ## What an annotation row may be -/

/-- The rows share their identity and their foundational fields. -/
structure Matches (annotated reconstruction : BaseRow Columns) : Prop where
  identity : (parts annotated).identity = (parts reconstruction).identity
  microUseClassification : annotated.microUseClassification = reconstruction.microUseClassification
  minimumDurationQualified :
    annotated.minimumDurationQualified = reconstruction.minimumDurationQualified
  minimumDurationAggregateEligible :
    annotated.minimumDurationAggregateEligible = reconstruction.minimumDurationAggregateEligible
  minimumDurationBlankApplied :
    annotated.minimumDurationBlankApplied = reconstruction.minimumDurationBlankApplied
  concurrentSubintervalFloorBlankApplied : annotated.concurrentSubintervalFloorBlankApplied =
    reconstruction.concurrentSubintervalFloorBlankApplied

/-- A duration stands beside a blank marker. -/
def BaseRow.BlankBesideDuration (row : BaseRow Columns) : Prop :=
  (row.minimumDurationBlankApplied = true ∨ row.concurrentSubintervalFloorBlankApplied = true) ∧
    (row.durationSeconds ≠ none ∨ row.durationMinutes ≠ none)

variable {parts} {reconstruction annotated : BaseRow Columns}

theorem foundationalStateDifferences_eq_nil :
    foundationalStateDifferences reconstruction annotated = [] ↔
      annotated.microUseClassification = reconstruction.microUseClassification ∧
      annotated.minimumDurationQualified = reconstruction.minimumDurationQualified ∧
      annotated.minimumDurationAggregateEligible =
        reconstruction.minimumDurationAggregateEligible ∧
      annotated.minimumDurationBlankApplied = reconstruction.minimumDurationBlankApplied ∧
      annotated.concurrentSubintervalFloorBlankApplied =
        reconstruction.concurrentSubintervalFloorBlankApplied := by
  rw [foundationalStateDifferences, List.map_eq_nil_iff, List.filter_eq_nil_iff]
  simp [-Bool.not_eq_true]

theorem mayAnnotate_eq_true_iff : mayAnnotate parts annotated reconstruction = true ↔
    Matches parts annotated reconstruction := by
  rw [mayAnnotate, Bool.and_eq_true, sameRowIdentity, decide_eq_true_eq, List.isEmpty_iff,
    foundationalStateDifferences_eq_nil]
  constructor
  · intro ⟨hidentity, huse, hqualified, heligible, hblank, hfloor⟩
    exact ⟨hidentity.symm, huse, hqualified, heligible, hblank, hfloor⟩
  · intro h
    exact ⟨h.identity.symm, h.microUseClassification, h.minimumDurationQualified,
      h.minimumDurationAggregateEligible, h.minimumDurationBlankApplied,
      h.concurrentSubintervalFloorBlankApplied⟩

theorem validateAnnotationBlankDurationProjection_eq_ok :
    validateAnnotationBlankDurationProjection annotated = .ok () ↔
      ¬annotated.BlankBesideDuration := by
  rw [validateAnnotationBlankDurationProjection, Stages.ite_error_eq_ok]
  simp [BaseRow.BlankBesideDuration, Option.isSome_iff_ne_none]

theorem validateAnnotationFoundationalProjection_eq_ok
    (hdifferences : foundationalStateDifferences reconstruction annotated = []) :
    validateAnnotationFoundationalProjection reconstruction annotated =
      validateAnnotationBlankDurationProjection annotated := by
  rw [validateAnnotationFoundationalProjection, if_neg (by simp [hdifferences])]

/-! ## The walk -/

variable {rows annotations : List (BaseRow Columns)}

/-- Annotation rows that hold no duration beside a blank marker do not stop the walk. -/
theorem exists_persistRows_eq_ok (hblank : ∀ row ∈ annotations, ¬row.BlankBesideDuration) :
    ∃ result, persistRows parts rows annotations = .ok result := by
  induction rows generalizing annotations with
  | nil => exact ⟨_, rfl⟩
  | cons reconstruction rows ih =>
      cases annotations with
      | nil =>
          obtain ⟨rest, hrest⟩ := ih hblank
          exact ⟨_, by rw [persistRows, hrest]; rfl⟩
      | cons annotated annotations =>
          rw [persistRows]
          split
          · obtain ⟨rest, hrest⟩ := ih fun row hrow => hblank row (List.mem_cons_of_mem _ hrow)
            have hfirst := validateAnnotationBlankDurationProjection_eq_ok.mpr
              (hblank annotated List.mem_cons_self)
            exact ⟨_, by rw [hfirst, hrest]; rfl⟩
          · obtain ⟨rest, hrest⟩ := ih hblank
            exact ⟨_, by rw [hrest]; rfl⟩

/-- What the walk persisted: the rows, and the annotation rows that it consumed. -/
structure Persisted (parts : BaseRow Columns → RowCheckpointParts)
    (rows annotations : List (BaseRow Columns)) (states : List (PersistedReconstructionRow Columns))
    (unconsumed : List (BaseRow Columns)) : Prop where
  unconsumed_eq : unconsumed = leftover (mayAnnotate parts) annotations rows
  restores : ∃ consumed, annotations = consumed ++ unconsumed ∧
    (∀ row ∈ consumed, ¬row.BlankBesideDuration) ∧ restoreRows parts states = .ok (rows, consumed)

/-- Fingerprints tell the rows from the annotation rows. -/
def CollisionFree (parts : BaseRow Columns → RowCheckpointParts)
    (rows annotations : List (BaseRow Columns)) : Prop :=
  ∀ row ∈ rows, ∀ annotated ∈ annotations, parts row = parts annotated → row = annotated

theorem Persisted.drop {states : List (PersistedReconstructionRow Columns)}
    {unconsumed : List (BaseRow Columns)} (h : Persisted parts rows annotations states unconsumed)
    (hleftover : leftover (mayAnnotate parts) annotations (reconstruction :: rows) =
      leftover (mayAnnotate parts) annotations rows) :
    Persisted parts (reconstruction :: rows) annotations (⟨reconstruction, .drop⟩ :: states)
      unconsumed := by
  obtain ⟨consumed, hannotations, hblank, hrestore⟩ := h.restores
  refine ⟨h.unconsumed_eq.trans hleftover.symm, consumed, hannotations, hblank, ?_⟩
  rw [restoreRows, hrestore]
  rfl

theorem Persisted.consume {states : List (PersistedReconstructionRow Columns)}
    {unconsumed : List (BaseRow Columns)} (h : Persisted parts rows annotations states unconsumed)
    (hmatch : mayAnnotate parts annotated reconstruction = true)
    (hblank : ¬annotated.BlankBesideDuration)
    (hfree : parts reconstruction = parts annotated → reconstruction = annotated) :
    Persisted parts (reconstruction :: rows) (annotated :: annotations)
      (⟨reconstruction, if parts reconstruction = parts annotated then .reuse
        else .replace annotated⟩ :: states) unconsumed := by
  obtain ⟨consumed, hannotations, hblanks, hrestore⟩ := h.restores
  have hcheck := validateAnnotationBlankDurationProjection_eq_ok.mpr hblank
  refine ⟨?_, annotated :: consumed, ?_, List.forall_mem_cons.mpr ⟨hblank, hblanks⟩, ?_⟩
  · rw [leftover, if_pos hmatch, h.unconsumed_eq]
  · rw [List.cons_append, ← hannotations]
  have hdifferences := List.isEmpty_iff.mp (Bool.and_eq_true_iff.mp hmatch).2
  split
  · next hparts =>
      -- the annotation row is the reconstruction row
      obtain rfl := hfree hparts
      rw [restoreRows, validateAnnotationFoundationalProjection_eq_ok hdifferences, hcheck, hrestore]
      rfl
  · rw [restoreRows, (Bool.and_eq_true_iff.mp hmatch).1,
      validateAnnotationFoundationalProjection_eq_ok hdifferences, hcheck, hrestore]
    rfl

theorem persisted_of_persistRows (hfree : CollisionFree parts rows annotations)
    {states : List (PersistedReconstructionRow Columns)} {unconsumed : List (BaseRow Columns)}
    (h : persistRows parts rows annotations = .ok (states, unconsumed)) :
    Persisted parts rows annotations states unconsumed := by
  induction rows generalizing annotations states unconsumed with
  | nil =>
      cases h
      exact ⟨by cases annotations <;> rfl, [], rfl,
        fun _ hrow => absurd hrow List.not_mem_nil, rfl⟩
  | cons reconstruction rows ih =>
      have htail : CollisionFree parts rows annotations := fun row hrow =>
        hfree row (List.mem_cons_of_mem _ hrow)
      cases annotations with
      | nil =>
          rw [persistRows] at h
          obtain ⟨rest, hrest, hresult⟩ := Stages.bind_eq_ok.mp h
          cases hresult
          have hleftover : leftover (mayAnnotate parts) [] (reconstruction :: rows) =
              leftover (mayAnnotate parts) [] rows := by
            rw [leftover_nil, leftover_nil]
          exact (ih htail hrest).drop hleftover
      | cons annotated annotations =>
          rw [persistRows] at h
          split at h
          · next hmatch =>
              obtain ⟨_, hcheck, hwalk⟩ := Stages.bind_eq_ok.mp h
              obtain ⟨rest, hrest, hresult⟩ := Stages.bind_eq_ok.mp hwalk
              cases hresult
              refine (ih (fun row hrow other hother => htail row hrow other
                (List.mem_cons_of_mem _ hother)) hrest).consume hmatch
                (validateAnnotationBlankDurationProjection_eq_ok.mp hcheck)
                (hfree _ List.mem_cons_self _ List.mem_cons_self)
          · next hmatch =>
              obtain ⟨rest, hrest, hresult⟩ := Stages.bind_eq_ok.mp h
              cases hresult
              exact (ih htail hrest).drop (by rw [leftover, if_neg hmatch])

/-! ## A base and what it persists as -/

/-- The annotation rows are matched in order to distinct reconstruction rows, and none holds a
duration beside a blank marker. -/
def Annotatable (parts : BaseRow Columns → RowCheckpointParts)
    (base : ReconstructionBase Columns Evidence Annotation) : Prop :=
  List.SublistForall₂ (Matches parts) base.annotationRows base.rows ∧
    ∀ row ∈ base.annotationRows, ¬row.BlankBesideDuration

theorem leftover_eq_nil_iff_matches :
    leftover (mayAnnotate parts) annotations rows = [] ↔
      List.SublistForall₂ (Matches parts) annotations rows := by
  have hrelation : (fun a b => mayAnnotate parts a b = true) = Matches parts :=
    funext₂ fun _ _ => propext mayAnnotate_eq_true_iff
  rw [leftover_eq_nil_iff, hrelation]

variable {base : ReconstructionBase Columns Evidence Annotation}

/-- Only a base that persisted has an annotation row for every wish. -/
theorem annotatable_of_persistReconstructionBase
    (hfree : CollisionFree parts base.rows base.annotationRows)
    {persisted : PersistedReconstructionBase Columns Evidence Annotation}
    (h : persistReconstructionBase parts base = .ok persisted) : Annotatable parts base := by
  obtain ⟨⟨states, unconsumed⟩, hrows, hresult⟩ := Stages.bind_eq_ok.mp h
  obtain ⟨hleftover, consumed, hannotations, hblank, _⟩ := persisted_of_persistRows hfree hrows
  cases unconsumed with
  | nil =>
      rw [List.append_nil] at hannotations
      exact ⟨leftover_eq_nil_iff_matches.mp hleftover.symm, hannotations ▸ hblank⟩
  | cons first later =>
      -- whatever the diagnosis finds, an error follows
      obtain ⟨_, _, herror⟩ := Stages.bind_eq_ok.mp hresult
      cases herror

theorem persistReconstructionBase_of_annotatable
    (hfree : CollisionFree parts base.rows base.annotationRows) (h : Annotatable parts base) :
    ∃ persisted, persistReconstructionBase parts base = .ok persisted ∧
      restoreReconstructionBase parts persisted = .ok base := by
  have hwritten : ∃ result, persistRows parts base.rows base.annotationRows = .ok result :=
    exists_persistRows_eq_ok h.2
  obtain ⟨⟨states, unconsumed⟩, hrows⟩ := hwritten
  obtain ⟨hleftover, consumed, hannotations, _, hrestore⟩ := persisted_of_persistRows hfree hrows
  rw [leftover_eq_nil_iff_matches.mpr h.1] at hleftover
  subst hleftover
  rw [List.append_nil] at hannotations
  refine ⟨⟨states, base.evidence, base.annotation⟩, ?_, ?_⟩
  · rw [persistReconstructionBase, hrows]
    rfl
  · rw [restoreReconstructionBase, hrestore, ← hannotations]
    rfl

/-- A base persists and is restored as it was, or is refused. -/
theorem persistReconstructionBase_restores
    (hfree : CollisionFree parts base.rows base.annotationRows) :
    (Annotatable parts base → ∃ persisted, persistReconstructionBase parts base = .ok persisted ∧
      restoreReconstructionBase parts persisted = .ok base) ∧
    (¬Annotatable parts base → ∃ error, persistReconstructionBase parts base = .error error) := by
  refine ⟨persistReconstructionBase_of_annotatable hfree, ?_⟩
  intro hrefused
  cases hpersist : persistReconstructionBase parts base with
  | error error => exact ⟨error, rfl⟩
  | ok persisted => exact absurd (annotatable_of_persistReconstructionBase hfree hpersist) hrefused

/-- The fingerprints of a row whose other columns are one byte. -/
def byteParts (row : BaseRow UInt8) : RowCheckpointParts where
  identity := [0]
  temporal := [if row.durationSeconds.isSome then 1 else 0]
  classification := [row.columns]

/-- Two pieces of one source row; the annotation row is that of the second. -/
def splitBase : ReconstructionBase UInt8 Unit Unit where
  rows := [{ columns := 0 }, { columns := 1 }]
  evidence := ()
  annotationRows := [{ columns := 3 }]
  annotation := ()

theorem persistReconstructionBase_splitBase :
    ∃ persisted, persistReconstructionBase byteParts splitBase = .ok persisted ∧
      restoreReconstructionBase byteParts persisted = .ok splitBase := by
  have hmatch : Matches byteParts { columns := 3 } { columns := 0 } :=
    ⟨rfl, rfl, rfl, rfl, rfl, rfl⟩
  have hfree : CollisionFree byteParts splitBase.rows splitBase.annotationRows := by
    simp [CollisionFree, splitBase, byteParts]
  refine (persistReconstructionBase_restores hfree).1 ⟨.cons hmatch .nil, ?_⟩
  simp [splitBase, BaseRow.BlankBesideDuration]

end Chronicle.Persistence
