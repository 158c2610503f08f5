import Chronicle.Eyes.Evidence
import Chronicle.Library.Positions
import Chronicle.Library.Ranks
import Chronicle.Library.Stages

/-!
# Screen sessions around a questionnaire window

The rows of a questionnaire stand in one array with rows outside it. Two boundary rows are inserted,
then one ghost row for each change of the usage identifier, at a fixed offset behind the row before
the change. The positions of the changes are taken once and shifted by the number of ghosts inserted
so far.
-/

namespace Chronicle.Adapters

open Chronicle.Library Chronicle.Library.Machine Chronicle.Library.Positions Chronicle.Library.Ranks
  Chronicle.Library.StableSort Chronicle.Library.Stages Chronicle.Eyes

/-- `QuestionnaireWindow` -/
structure QuestionnaireWindow where
  questionnaireId : String
  startTimestampNs : Int
  endTimestampNs : Int
deriving DecidableEq, Repr

/-- `LabeledScreenStateRow` -/
structure LabeledScreenStateRow where
  sourceRowId : String
  timestampNs : Int
  questionnaireId : Option String
  usageId : Option Int
  nonusageId : Option Int
deriving DecidableEq, Repr

/-- `EmaScreenSessionConfiguration` -/
structure EmaScreenSessionConfiguration where
  expectedWindowDurationNs : Int
  ghostOffsetNs : Int
  ghostNonusageIdOffset : Int
  minimumInclusiveMixedUsageRowCount : Nat
deriving DecidableEq, Repr

/-- `EmaMaterializedRowKind` -/
inductive EmaMaterializedRowKind where
  | source
  | startBoundary
  | endBoundary
  | ghostNonusage
deriving DecidableEq, Repr

/-- `EmaMaterializedRow` -/
structure EmaMaterializedRow where
  sourceRowId : Option String
  timestampNs : Int
  usageId : Option Int
  nonusageId : Option Int
  kind : EmaMaterializedRowKind
deriving DecidableEq, Repr

/-- `EmaScreenSessionKind` -/
inductive EmaScreenSessionKind where
  | usage
  | nonusage
deriving DecidableEq, Repr

/-- `EmaScreenSession` -/
structure EmaScreenSession where
  kind : EmaScreenSessionKind
  sessionId : Int
  startTimestampNs : Int
  endTimestampNs : Int
deriving DecidableEq, Repr

/-- `EmaScreenSessionMaterialization` -/
structure EmaScreenSessionMaterialization where
  rows : List EmaMaterializedRow
  sessions : List EmaScreenSession
deriving DecidableEq, Repr

/-- `EmaScreenSessionMaterializationError` -/
inductive EmaScreenSessionMaterializationError where
  | emptyQuestionnaireId
  | emptySourceRowId
  | duplicateSourceRowId (rowId : String)
  | duplicateTimestamp (timestamp : Int)
  | invalidWindow
  | unexpectedWindowDuration
  | invalidConfiguration
  | invalidStateAssignment (rowId : String)
  | assignedRowOutsideOpenWindow (rowId : String)
  | boundaryTimestampCollision (timestamp : Int)
  | missingRowAfterBoundary (timestamp : Int)
  | timestampOverflow
  | ghostIdOverflow
  | ghostTimestampCollision (timestamp : Int)
  | noAssignedRows
  | noUsageOrNonusageState
deriving DecidableEq, Repr

/-- How the code stops early: with an error, or at an index or an `expect` that fails. -/
inductive EmaHalt where
  | refused (error : EmaScreenSessionMaterializationError)
  | panicked
deriving DecidableEq, Repr

/-- `WorkingRow` -/
structure WorkingRow where
  sourceRowId : Option String
  timestampNs : Int
  questionnaireId : Option String
  usageId : Option Int
  nonusageId : Option Int
  kind : EmaMaterializedRowKind
deriving DecidableEq, Repr

/-- `boundary_state` -/
def boundaryState (previous : Option WorkingRow) (following : WorkingRow) :
    Option Int × Option Int :=
  let previousUsage := previous.bind WorkingRow.usageId
  let previousNonusage := previous.bind WorkingRow.nonusageId
  match previousNonusage, following.nonusageId with
  | none, none => (previousUsage.or following.usageId, none)
  | none, some nonusageId => (following.usageId, some nonusageId)
  | some nonusageId, none => (previousUsage, some nonusageId)
  | some previousId, some followingId =>
      if previousId = followingId then (none, some previousId) else (none, none)

/-- `insert_boundary` -/
def insertBoundary (rows : List WorkingRow) (questionnaireId : String) (timestampNs : Int)
    (kind : EmaMaterializedRowKind) : Except EmaHalt (List WorkingRow) :=
  let index := partitionPoint WorkingRow.timestampNs timestampNs rows
  match rows[index]? with
  | none => .error (.refused (.missingRowAfterBoundary timestampNs))
  | some following =>
      if following.timestampNs = timestampNs then
        .error (.refused (.boundaryTimestampCollision timestampNs))
      else
        let previous := if index = 0 then none else rows[index - 1]?
        let state := boundaryState previous following
        .ok (rows.insertIdx index
          ⟨none, timestampNs, some questionnaireId, state.1, state.2, kind⟩)

/-- `unique_ids_in_order` -/
def uniqueIdsInOrder (rows : List WorkingRow) (select : WorkingRow → Option Int) : List Int :=
  (rows.filterMap select).reverse.dedup.reverse

/-- The checks of the window and of the configuration. -/
def checkWindow (window : QuestionnaireWindow) (configuration : EmaScreenSessionConfiguration) :
    Except EmaHalt Unit :=
  let windowDuration := window.endTimestampNs - window.startTimestampNs
  if isBlank window.questionnaireId then .error (.refused .emptyQuestionnaireId)
  else if ¬(Fits64 windowDuration ∧ 0 < windowDuration) then .error (.refused .invalidWindow)
  else if windowDuration ≠ configuration.expectedWindowDurationNs then
    .error (.refused .unexpectedWindowDuration)
  else if configuration.expectedWindowDurationNs ≤ 0 ∨ configuration.ghostOffsetNs ≤ 0 ∨
      configuration.ghostNonusageIdOffset ≤ 0 ∨
      configuration.minimumInclusiveMixedUsageRowCount = 0 then
    .error (.refused .invalidConfiguration)
  else .ok ()

/-- The row belongs to the questionnaire. -/
def assigned (window : QuestionnaireWindow) (row : WorkingRow) : Bool :=
  row.questionnaireId = some window.questionnaireId

/-- The first loop: the source rows as working rows. `sourceIds` and `timestamps` hold those of the
rows before. -/
def collectRows (window : QuestionnaireWindow) (sourceIds : List String) (timestamps : List Int) :
    List LabeledScreenStateRow → Except EmaHalt (List WorkingRow)
  | [] => .ok []
  | row :: rest =>
      if isBlank row.sourceRowId then .error (.refused .emptySourceRowId)
      else if row.sourceRowId ∈ sourceIds then
        .error (.refused (.duplicateSourceRowId row.sourceRowId))
      else if row.timestampNs ∈ timestamps then
        .error (.refused (.duplicateTimestamp row.timestampNs))
      else if row.usageId.isSome = row.nonusageId.isSome then
        .error (.refused (.invalidStateAssignment row.sourceRowId))
      else if row.questionnaireId = some window.questionnaireId ∧
          ¬(window.startTimestampNs < row.timestampNs ∧
            row.timestampNs < window.endTimestampNs) then
        .error (.refused (.assignedRowOutsideOpenWindow row.sourceRowId))
      else
        (collectRows window (row.sourceRowId :: sourceIds) (row.timestampNs :: timestamps) rest).map
          (⟨some row.sourceRowId, row.timestampNs, row.questionnaireId, row.usageId,
            row.nonusageId, .source⟩ :: ·)

/-- All rows in time order, with the two boundaries. -/
def prepareRows (sourceRows : List LabeledScreenStateRow) (window : QuestionnaireWindow) :
    Except EmaHalt (List WorkingRow) := do
  let rows ← collectRows window [] [] sourceRows
  let rows := sortByKey WorkingRow.timestampNs rows
  let rows ← insertBoundary rows window.questionnaireId window.startTimestampNs .startBoundary
  insertBoundary rows window.questionnaireId window.endTimestampNs .endBoundary

/-- The usage identifiers are both there and differ. -/
def changes (a b : WorkingRow) : Bool :=
  match a.usageId, b.usageId with
  | some left, some right => left ≠ right
  | _, _ => false

/-- `transition_positions`: the indices in a row of window rows before a change. -/
def transitionsFrom (index : Nat) : List WorkingRow → List Nat
  | a :: b :: rest =>
      (if changes a b then [index] else []) ++ transitionsFrom (index + 1) (b :: rest)
  | _ => []

/-- One turn of the ghost loop. -/
def insertGhost (window : QuestionnaireWindow) (configuration : EmaScreenSessionConfiguration)
    (rows : List WorkingRow) (turn : Nat × Nat) : Except EmaHalt (List WorkingRow) :=
  match (positions (assigned window) 0 rows)[turn.1 + turn.2]? with
  | none => .error .panicked
  | some (source, _) =>
      let timestampNs := source.timestampNs + configuration.ghostOffsetNs
      if ¬Fits64 timestampNs then .error (.refused .timestampOverflow)
      else if rows.any fun row => row.timestampNs = timestampNs then
        .error (.refused (.ghostTimestampCollision timestampNs))
      else
        match source.usageId with
        | none => .error .panicked
        | some usageId =>
            let nonusageId := usageId + configuration.ghostNonusageIdOffset
            if ¬Fits64 nonusageId then .error (.refused .ghostIdOverflow)
            else .ok (insertAt WorkingRow.timestampNs
              ⟨none, timestampNs, some window.questionnaireId, none, some nonusageId,
                .ghostNonusage⟩ rows)

/-- The loop over the transition positions, numbered by `enumerate`. -/
def insertGhosts (window : QuestionnaireWindow) (configuration : EmaScreenSessionConfiguration)
    (rows : List WorkingRow) (transitionPositions : List Nat) : Except EmaHalt (List WorkingRow) :=
  transitionPositions.zipIdx.foldlM (insertGhost window configuration) rows

/-- The timestamp of an indexed row. -/
def timestampAt (selected : List WorkingRow) (index : Nat) : Except EmaHalt Int :=
  match selected[index]? with
  | none => .error .panicked
  | some row => .ok row.timestampNs

/-- A session from one indexed row to another. -/
def sessionBetween (selected : List WorkingRow) (kind : EmaScreenSessionKind) (sessionId : Int)
    (first last : Nat) : Except EmaHalt EmaScreenSession := do
  return ⟨kind, sessionId, ← timestampAt selected first, ← timestampAt selected last⟩

/-- The indices of the rows with an identifier. -/
def indicesOf (selected : List WorkingRow) (select : WorkingRow → Option Int) (sessionId : Int) :
    List Nat :=
  (positions (fun row => select row = some sessionId) 0 selected).map Prod.snd

/-- `positions[0]` and `positions.last()`. -/
def firstAndLast (indices : List Nat) : Except EmaHalt (Nat × Nat) :=
  match indices.head?, indices.getLast? with
  | some first, some last => .ok (first, last)
  | _, _ => .error .panicked

/-- The usage sessions of the mixed case, in the order of the `BTreeMap`. -/
def mixedUsageSessions (selected : List WorkingRow) (minimum : Nat) (usageIds : List Int) :
    Except EmaHalt (List EmaScreenSession) :=
  ((sortByKey (fun id => id) usageIds).filter fun id =>
    minimum ≤ (indicesOf selected WorkingRow.usageId id).length).mapM fun id => do
      let bounds ← firstAndLast (indicesOf selected WorkingRow.usageId id)
      sessionBetween selected .usage id bounds.1 bounds.2

/-- The nonusage sessions of the mixed case, each out to the neighbouring rows. -/
def mixedNonusageSessions (selected : List WorkingRow) (nonusageIds : List Int) :
    Except EmaHalt (List EmaScreenSession) :=
  nonusageIds.mapM fun id => do
    let bounds ← firstAndLast (indicesOf selected WorkingRow.nonusageId id)
    sessionBetween selected .nonusage id (bounds.1 - 1) (min (bounds.2 + 1) (selected.length - 1))

/-- The sessions of the window rows. -/
def sessionsOf (selected : List WorkingRow) (minimum : Nat) :
    Except EmaHalt (List EmaScreenSession) :=
  let usageIds := uniqueIdsInOrder selected WorkingRow.usageId
  let nonusageIds := uniqueIdsInOrder selected WorkingRow.nonusageId
  if usageIds.isEmpty ∧ nonusageIds.isEmpty then .error (.refused .noUsageOrNonusageState)
  else if nonusageIds.isEmpty then
    usageIds.mapM fun id => sessionBetween selected .usage id 0 (selected.length - 1)
  else if usageIds.isEmpty then
    nonusageIds.mapM fun id => sessionBetween selected .nonusage id 0 (selected.length - 1)
  else do
    let usage ← mixedUsageSessions selected minimum usageIds
    let nonusage ← mixedNonusageSessions selected nonusageIds
    return usage ++ nonusage

/-- A working row as it is returned. -/
def WorkingRow.materialized (row : WorkingRow) : EmaMaterializedRow :=
  ⟨row.sourceRowId, row.timestampNs, row.usageId, row.nonusageId, row.kind⟩

/-- `materialize_ema_screen_sessions` -/
def materializeEmaScreenSessions (sourceRows : List LabeledScreenStateRow)
    (window : QuestionnaireWindow) (configuration : EmaScreenSessionConfiguration) :
    Except EmaHalt EmaScreenSessionMaterialization := do
  checkWindow window configuration
  let rows ← prepareRows sourceRows window
  let initiallySelected := rows.filter (assigned window)
  if initiallySelected.length = 2 then
    .error (.refused .noAssignedRows)
  else
    let rows ← insertGhosts window configuration rows (transitionsFrom 0 initiallySelected)
    let selected := rows.filter (assigned window)
    let sessions ← sessionsOf selected configuration.minimumInclusiveMixedUsageRowCount
    return ⟨selected.map WorkingRow.materialized, sessions⟩

/-! ## The rows before the ghosts -/

variable {sourceRows : List LabeledScreenStateRow} {window : QuestionnaireWindow}
  {configuration : EmaScreenSessionConfiguration} {rows rows' windowRows : List WorkingRow}
  {a b : WorkingRow}

/-- The code does not panic. -/
def Safe {α : Type} (x : Except EmaHalt α) : Prop := x ≠ .error .panicked

theorem safe_ok {α : Type} (x : α) : Safe (.ok x) := nofun

theorem safe_refused {α : Type} (error : EmaScreenSessionMaterializationError) :
    Safe (.error (.refused error) : Except EmaHalt α) := by
  rintro ⟨⟩

theorem Safe.bind {α β : Type} {x : Except EmaHalt α} {f : α → Except EmaHalt β} (hx : Safe x)
    (hf : ∀ y, x = .ok y → Safe (f y)) : Safe (x >>= f) := by
  cases x with
  | error halt => exact fun h => hx (congrArg Except.error (Except.error.inj h))
  | ok y => exact hf y rfl

theorem Safe.map {α β : Type} {x : Except EmaHalt α} {f : α → β} (hx : Safe x) :
    Safe (x.map f) := by
  cases x with
  | error halt => exact fun h => hx (congrArg Except.error (Except.error.inj h))
  | ok y => exact safe_ok _

theorem Safe.ite_refused {α : Type} {p : Prop} {decision : Decidable p}
    {error : EmaScreenSessionMaterializationError} {x : Except EmaHalt α} (hx : Safe x) :
    Safe (if p then .error (.refused error) else x) := by
  split
  · exact safe_refused error
  · exact hx

theorem safe_mapM {α β : Type} {f : α → Except EmaHalt β} {l : List α}
    (h : ∀ x ∈ l, Safe (f x)) : Safe (l.mapM f) := by
  induction l with
  | nil => exact safe_ok []
  | cons x l ih =>
    obtain ⟨hx, hl⟩ := List.forall_mem_cons.mp h
    rw [List.mapM_cons]
    exact hx.bind fun y _ => (ih hl).bind fun ys _ => safe_ok _

theorem safe_checkWindow : Safe (checkWindow window configuration) :=
  .ite_refused (.ite_refused (.ite_refused (.ite_refused (safe_ok ()))))

theorem safe_collectRows (sourceIds : List String) (timestamps : List Int) :
    Safe (collectRows window sourceIds timestamps sourceRows) := by
  induction sourceRows generalizing sourceIds timestamps with
  | nil => exact safe_ok []
  | cons row rest ih =>
    exact .ite_refused (.ite_refused (.ite_refused (.ite_refused (.ite_refused (ih _ _).map))))

theorem safe_insertBoundary (rows : List WorkingRow) (id : String) (timestampNs : Int)
    (kind : EmaMaterializedRowKind) : Safe (insertBoundary rows id timestampNs kind) := by
  unfold insertBoundary
  dsimp only
  split
  · exact safe_refused _
  · exact .ite_refused (safe_ok _)

theorem safe_prepareRows : Safe (prepareRows sourceRows window) :=
  (safe_collectRows [] []).bind fun _ _ =>
    (safe_insertBoundary _ _ _ _).bind fun _ _ => safe_insertBoundary _ _ _ _

/-- The collected rows have different times, none of them seen before, and no ghost. -/
theorem collectRows_spec {sourceIds : List String} {timestamps : List Int}
    (h : collectRows window sourceIds timestamps sourceRows = .ok rows) :
    (rows.map WorkingRow.timestampNs).Nodup ∧
      (∀ row ∈ rows, row.timestampNs ∉ timestamps ∧ row.kind = .source) := by
  induction sourceRows generalizing sourceIds timestamps rows with
  | nil =>
    obtain rfl := Except.ok.inj h
    exact ⟨List.nodup_nil, fun _ hrow => absurd hrow List.not_mem_nil⟩
  | cons row rest ih =>
    rw [collectRows, ite_error_eq_ok, ite_error_eq_ok, ite_error_eq_ok, ite_error_eq_ok,
      ite_error_eq_ok, map_eq_ok] at h
    obtain ⟨-, -, hnew, -, -, later, hlater, rfl⟩ := h
    obtain ⟨hnodup, hrows⟩ := ih hlater
    refine ⟨List.nodup_cons.mpr ⟨fun hmem => ?_, hnodup⟩, List.forall_mem_cons.mpr
      ⟨⟨hnew, rfl⟩, fun other hother => ⟨fun hmem => ?_, (hrows other hother).2⟩⟩⟩
    · obtain ⟨other, hother, heq⟩ := List.mem_map.mp hmem
      exact (hrows other hother).1 (heq ▸ List.mem_cons_self)
    · exact (hrows other hother).1 (List.mem_cons_of_mem _ hmem)

/-- An array in strict time order without ghosts. -/
structure Prepared (rows : List WorkingRow) : Prop where
  rising : Rising WorkingRow.timestampNs rows
  noGhost : ∀ row ∈ rows, row.kind ≠ .ghostNonusage

theorem Prepared.insertBoundary {id : String} {timestampNs : Int} {kind : EmaMaterializedRowKind}
    (hrows : Prepared rows) (hkind : kind ≠ .ghostNonusage)
    (h : Adapters.insertBoundary rows id timestampNs kind = .ok rows') : Prepared rows' := by
  unfold Adapters.insertBoundary at h
  dsimp only at h
  split at h
  · cases h
  · rename_i following hfollowing
    obtain ⟨hne, h⟩ := ite_error_eq_ok.mp h
    obtain rfl := Except.ok.inj h
    refine ⟨hrows.rising.insertAt (hrows.rising.forall_ne hfollowing hne), fun row hrow => ?_⟩
    obtain rfl | hrow := List.mem_cons.mp ((perm_insertAt _ rows).mem_iff.mp hrow)
    · exact hkind
    · exact hrows.noGhost row hrow

theorem prepared_of_prepareRows (h : prepareRows sourceRows window = .ok rows) :
    Prepared rows := by
  obtain ⟨collected, hcollected, h⟩ := bind_eq_ok.mp h
  obtain ⟨started, hstarted, hended⟩ := bind_eq_ok.mp h
  obtain ⟨hnodup, hsource⟩ := collectRows_spec hcollected
  have hsorted : Prepared (sortByKey WorkingRow.timestampNs collected) := by
    refine ⟨?_, fun row hrow => ?_⟩
    · have hdistinct : ((sortByKey WorkingRow.timestampNs collected).map
          WorkingRow.timestampNs).Nodup :=
        ((perm_sortByKey _ collected).map _).nodup_iff.mpr hnodup
      have hle := pairwise_sortByKey WorkingRow.timestampNs collected
      rw [List.Nodup, List.pairwise_map] at hdistinct
      exact (hle.and hdistinct).imp fun h => lt_of_le_of_ne h.1 h.2
    · rw [(hsource row (mem_sortByKey.mp hrow)).2]
      nofun
  exact (hsorted.insertBoundary (by decide) hstarted).insertBoundary (by decide) hended

/-! ## The changes -/

/-- Two neighbours with unequal usage identifiers. -/
structure ChangeAt (windowRows : List WorkingRow) (index : Nat) (a b : WorkingRow) : Prop where
  left : windowRows[index]? = some a
  right : windowRows[index + 1]? = some b
  changes : changes a b = true

theorem transitionsFrom_cons (start : Nat) (a : WorkingRow) (rest : List WorkingRow) :
    transitionsFrom start (a :: rest) =
      (if rest.head?.any (changes a) then [start] else []) ++ transitionsFrom (start + 1) rest := by
  cases rest with
  | nil => rfl
  | cons b rest => rw [transitionsFrom, List.head?_cons, Option.any_some]

theorem le_of_mem_transitionsFrom {start p : Nat} (h : p ∈ transitionsFrom start windowRows) :
    start ≤ p := by
  induction windowRows generalizing start with
  | nil => cases h
  | cons a rest ih =>
    rw [transitionsFrom_cons] at h
    obtain h | h := List.mem_append.mp h
    · split at h
      · exact (List.mem_singleton.mp h).ge
      · cases h
    · exact (ih h).trans' start.le_succ

theorem transitionsFrom_pairwise (start : Nat) (windowRows : List WorkingRow) :
    (transitionsFrom start windowRows).Pairwise (· < ·) := by
  induction windowRows generalizing start with
  | nil => exact .nil
  | cons a rest ih =>
    rw [transitionsFrom_cons]
    split
    · exact List.pairwise_cons.mpr ⟨fun p hp => le_of_mem_transitionsFrom hp, ih _⟩
    · exact ih _

theorem mem_transitionsFrom (start : Nat) {index : Nat} :
    start + index ∈ transitionsFrom start windowRows ↔ ∃ a b, ChangeAt windowRows index a b := by
  induction windowRows generalizing start index with
  | nil =>
    refine iff_of_false (fun h => absurd h List.not_mem_nil) ?_
    rintro ⟨a, b, h⟩
    cases h.left
  | cons first rest ih =>
    rw [transitionsFrom_cons, List.mem_append]
    cases index with
    | zero =>
      have hlater : start + 0 ∉ transitionsFrom (start + 1) rest :=
        fun h => absurd (le_of_mem_transitionsFrom h) (by omega)
      rw [or_iff_left hlater]
      constructor
      · intro h
        split at h
        · rename_i hany
          obtain ⟨b, hb, hchange⟩ := (Option.any_eq_true _ _).mp hany
          exact ⟨first, b, rfl, by rwa [List.getElem?_cons_succ, ← List.head?_eq_getElem?],
            hchange⟩
        · cases h
      · rintro ⟨a, b, hleft, hright, hchange⟩
        obtain rfl := Option.some.inj hleft
        rw [List.getElem?_cons_succ, ← List.head?_eq_getElem?] at hright
        rw [hright, Option.any_some, if_pos hchange]
        exact List.mem_singleton_self start
    | succ index =>
      have hnow : start + (index + 1) ∉ if rest.head?.any (changes first) then [start] else [] := by
        split <;> simp
      rw [or_iff_right hnow, ← Nat.add_assoc, Nat.add_right_comm, ih]
      exact exists₂_congr fun a b => ⟨fun h => ⟨h.left, h.right, h.changes⟩,
        fun h => ⟨h.left, h.right, h.changes⟩⟩

/-- The positions of the changes. -/
theorem mem_transitions {index : Nat} :
    index ∈ transitionsFrom 0 windowRows ↔ ∃ a b, ChangeAt windowRows index a b := by
  rw [← mem_transitionsFrom 0, Nat.zero_add]

/-! ## One ghost -/

/-- The ghost behind a row. -/
def ghostOf (window : QuestionnaireWindow) (configuration : EmaScreenSessionConfiguration)
    (source : WorkingRow) (usageId : Int) : WorkingRow :=
  ⟨none, source.timestampNs + configuration.ghostOffsetNs, some window.questionnaireId, none,
    some (usageId + configuration.ghostNonusageIdOffset), .ghostNonusage⟩

/-- The window rows of the array. -/
abbrev selectedOf (window : QuestionnaireWindow) (rows : List WorkingRow) : List WorkingRow :=
  rows.filter (assigned window)

theorem selectedOf_rising (window : QuestionnaireWindow) (h : Rising WorkingRow.timestampNs rows) :
    Rising WorkingRow.timestampNs (selectedOf window rows) :=
  List.Pairwise.sublist List.filter_sublist h

theorem assigned_ghostOf (source : WorkingRow) (usageId : Int) :
    assigned window (ghostOf window configuration source usageId) = true :=
  decide_eq_true rfl

/-- One turn takes the source from its index and inserts its ghost at a free time. -/
theorem insertGhost_eq_ok {turn : Nat × Nat}
    (h : insertGhost window configuration rows turn = .ok rows') :
    ∃ source usageId, (selectedOf window rows)[turn.1 + turn.2]? = some source ∧
      source.usageId = some usageId ∧
      (∀ row ∈ rows, row.timestampNs ≠
        (ghostOf window configuration source usageId).timestampNs) ∧
      rows' = insertAt WorkingRow.timestampNs (ghostOf window configuration source usageId)
        rows := by
  unfold insertGhost at h
  split at h
  · cases h
  · rename_i source i hsource
    dsimp only at h
    obtain ⟨-, h⟩ := ite_error_eq_ok.mp h
    obtain ⟨hfree, h⟩ := ite_error_eq_ok.mp h
    split at h
    · cases h
    · rename_i usageId husage
      obtain ⟨-, h⟩ := ite_error_eq_ok.mp h
      refine ⟨source, usageId, ?_, husage, fun row hrow heq => hfree ?_, (Except.ok.inj h).symm⟩
      · rw [selectedOf, ← map_fst_positions 0, List.getElem?_map, hsource]
        rfl
      · exact List.any_eq_true.mpr ⟨row, hrow, decide_eq_true heq⟩

/-- With a source that has a usage identifier, a turn does not panic. -/
theorem safe_insertGhost {turn : Nat × Nat} {source : WorkingRow}
    (hsource : (selectedOf window rows)[turn.1 + turn.2]? = some source)
    (husage : source.usageId ≠ none) : Safe (insertGhost window configuration rows turn) := by
  rw [selectedOf, ← map_fst_positions 0, List.getElem?_map, Option.map_eq_some_iff] at hsource
  obtain ⟨⟨source, i⟩, hcell, rfl⟩ := hsource
  unfold insertGhost
  rw [hcell]
  refine .ite_refused (.ite_refused ?_)
  split
  · exact absurd ‹_› husage
  · exact .ite_refused (safe_ok _)

theorem insertAt_ghost_rising {source : WorkingRow} {usageId : Int}
    (hrising : Rising WorkingRow.timestampNs rows)
    (hfree : ∀ row ∈ rows, row.timestampNs ≠
      (ghostOf window configuration source usageId).timestampNs) :
    Rising WorkingRow.timestampNs
      (insertAt WorkingRow.timestampNs (ghostOf window configuration source usageId) rows) :=
  hrising.insertAt hfree

/-- The window rows gain the ghost. -/
theorem selectedOf_insertAt_ghost (window : QuestionnaireWindow)
    (configuration : EmaScreenSessionConfiguration) (source : WorkingRow) (usageId : Int) (rows : List WorkingRow) :
    (selectedOf window (insertAt WorkingRow.timestampNs
      (ghostOf window configuration source usageId) rows)).Perm
      (ghostOf window configuration source usageId :: selectedOf window rows) := by
  have hperm : (selectedOf window (insertAt WorkingRow.timestampNs
      (ghostOf window configuration source usageId) rows)).Perm
      (selectedOf window (ghostOf window configuration source usageId :: rows)) :=
    (perm_insertAt _ rows).filter (assigned window)
  rwa [selectedOf, selectedOf, List.filter_cons_of_pos (assigned_ghostOf source usageId)] at hperm

/-! ## Changes with room for their ghosts -/

/-- The ghosts of the changes at the given positions. -/
def ghostsAt (window : QuestionnaireWindow) (configuration : EmaScreenSessionConfiguration)
    (windowRows : List WorkingRow) (ps : List Nat) : List WorkingRow :=
  ps.filterMap fun p => windowRows[p]?.bind fun a =>
    a.usageId.map (ghostOf window configuration a)

/-- The change at a position leaves room for its ghost. -/
def Spaced (configuration : EmaScreenSessionConfiguration) (windowRows : List WorkingRow)
    (p : Nat) : Prop :=
  ∃ a b, ChangeAt windowRows p a b ∧ a.timestampNs + configuration.ghostOffsetNs < b.timestampNs

variable {done ps : List Nat} {p : Nat} {ghost : WorkingRow}

theorem exists_of_changes (h : changes a b = true) :
    ∃ x y, a.usageId = some x ∧ b.usageId = some y ∧ x ≠ y := by
  unfold changes at h
  split at h
  · rename_i x y hx hy
    exact ⟨x, y, hx, hy, of_decide_eq_true h⟩
  · cases h

theorem ChangeAt.exists_usageId (h : ChangeAt windowRows p a b) : ∃ x, a.usageId = some x :=
  let ⟨x, _, hx, _⟩ := exists_of_changes h.changes
  ⟨x, hx⟩

theorem mem_ghostsAt : ghost ∈ ghostsAt window configuration windowRows ps ↔
    ∃ p ∈ ps, ∃ a x, windowRows[p]? = some a ∧ a.usageId = some x ∧
      ghost = ghostOf window configuration a x := by
  unfold ghostsAt
  rw [List.mem_filterMap]
  refine exists_congr fun p => and_congr_right fun _ => ?_
  simp only [Option.bind_eq_some_iff, Option.map_eq_some_iff]
  exact exists_congr fun a => ⟨fun ⟨ha, x, hx, heq⟩ => ⟨x, ha, hx, heq.symm⟩,
    fun ⟨x, ha, hx, heq⟩ => ⟨ha, x, hx, heq.symm⟩⟩

theorem ghostsAt_append (ps qs : List Nat) :
    ghostsAt window configuration windowRows (ps ++ qs) =
      ghostsAt window configuration windowRows ps ++
        ghostsAt window configuration windowRows qs :=
  List.filterMap_append ..

theorem ghostsAt_singleton {x : Int} (ha : windowRows[p]? = some a) (hx : a.usageId = some x) :
    ghostsAt window configuration windowRows [p] = [ghostOf window configuration a x] := by
  simp [ghostsAt, ha, hx]

theorem length_ghostsAt (window : QuestionnaireWindow)
    (h : ∀ p ∈ ps, Spaced configuration windowRows p) :
    (ghostsAt window configuration windowRows ps).length = ps.length := by
  induction ps with
  | nil => rfl
  | cons p ps ih =>
    obtain ⟨⟨a, b, hchange, -⟩, hps⟩ := List.forall_mem_cons.mp h
    obtain ⟨x, hx⟩ := hchange.exists_usageId
    rw [← List.singleton_append, ghostsAt_append, ghostsAt_singleton hchange.left hx,
      List.length_append, List.length_append, ih hps]
    rfl

/-- A ghost with room comes before every later window row. -/
theorem ghost_lt (hrising : Rising WorkingRow.timestampNs windowRows)
    (hspaced : ∀ p ∈ ps, Spaced configuration windowRows p) (hbefore : ∀ q ∈ ps, q < p)
    (ha : windowRows[p]? = some a) (hghost : ghost ∈ ghostsAt window configuration windowRows ps) :
    ghost.timestampNs < a.timestampNs := by
  obtain ⟨q, hq, c, x, hc, -, rfl⟩ := mem_ghostsAt.mp hghost
  obtain ⟨c', d, hchange, hroom⟩ := hspaced q hq
  obtain rfl := Option.some.inj (hchange.left.symm.trans hc)
  exact lt_of_lt_of_le hroom (hrising.time_le (hbefore q hq) hchange.right ha)

/-- While every ghost so far had room, the shifted index finds the row before the change. -/
theorem rank_shifted (hrising : Rising WorkingRow.timestampNs windowRows)
    (hspaced : ∀ p ∈ done, Spaced configuration windowRows p) (hbefore : ∀ q ∈ done, q < p)
    (ha : windowRows[p]? = some a)
    (hperm : (selectedOf window rows).Perm
      (ghostsAt window configuration windowRows done ++ windowRows)) :
    rank WorkingRow.timestampNs a.timestampNs (selectedOf window rows) = p + done.length := by
  have hghosts : rank WorkingRow.timestampNs a.timestampNs
      (ghostsAt window configuration windowRows done) = done.length := by
    rw [← length_ghostsAt window hspaced]
    exact List.countP_eq_length.mpr fun ghost hghost =>
      decide_eq_true (ghost_lt hrising hspaced hbefore ha hghost)
  rw [rank_perm hperm, rank, List.countP_append]
  change rank _ _ _ + rank _ _ _ = _
  rw [hghosts, hrising.rank_getElem? ha, Nat.add_comm]

/-- The loop over changes with room. -/
theorem insertGhosts_spaced (done : List Nat) (hwindow : Rising WorkingRow.timestampNs windowRows)
    (hspaced : ∀ p ∈ done ++ ps, Spaced configuration windowRows p)
    (hincreasing : (done ++ ps).Pairwise (· < ·)) (hrising : Rising WorkingRow.timestampNs rows)
    (hperm : (selectedOf window rows).Perm
      (ghostsAt window configuration windowRows done ++ windowRows)) :
    Safe ((ps.zipIdx done.length).foldlM (insertGhost window configuration) rows) ∧
      ∀ rows', (ps.zipIdx done.length).foldlM (insertGhost window configuration) rows = .ok rows' →
        Rising WorkingRow.timestampNs rows' ∧ (selectedOf window rows').Perm
          (ghostsAt window configuration windowRows (done ++ ps) ++ windowRows) := by
  induction ps generalizing done rows with
  | nil =>
    refine ⟨safe_ok _, fun rows' h => ?_⟩
    obtain rfl := Except.ok.inj h
    exact ⟨hrising, by rwa [List.append_nil]⟩
  | cons p ps ih =>
    obtain ⟨a, b, hchange, hroom⟩ := hspaced p (List.mem_append_right _ List.mem_cons_self)
    obtain ⟨x, hx⟩ := hchange.exists_usageId
    have hdone : ∀ q ∈ done, q < p := fun q hq =>
      (List.pairwise_append.mp hincreasing).2.2 q hq p List.mem_cons_self
    have hsource : (selectedOf window rows)[p + done.length]? = some a := by
      have hmem : a ∈ selectedOf window rows := hperm.mem_iff.mpr
        (List.mem_append_right _ (List.mem_of_getElem? hchange.left))
      rw [← rank_shifted hwindow (fun q hq => hspaced q (List.mem_append_left _ hq)) hdone
        hchange.left hperm]
      exact (selectedOf_rising window hrising).getElem?_rank hmem
    have hsplit : done ++ p :: ps = (done ++ [p]) ++ ps := by simp
    -- the loop goes on from the rows with one more ghost
    have hnext : ∀ rows₁, insertGhost window configuration rows (p, done.length) = .ok rows₁ →
        Rising WorkingRow.timestampNs rows₁ ∧ (selectedOf window rows₁).Perm
          (ghostsAt window configuration windowRows (done ++ [p]) ++ windowRows) := by
      intro rows₁ hrows₁
      obtain ⟨source, y, hat, hy, hfree, rfl⟩ := insertGhost_eq_ok hrows₁
      obtain rfl := Option.some.inj (hsource.symm.trans hat)
      obtain rfl := Option.some.inj (hx.symm.trans hy)
      refine ⟨insertAt_ghost_rising hrising hfree, (selectedOf_insertAt_ghost _ _ _ _ _).trans ?_⟩
      rw [ghostsAt_append, ghostsAt_singleton hchange.left hx, List.append_assoc,
        List.singleton_append]
      exact (hperm.cons _).trans List.perm_middle.symm
    rw [List.zipIdx_cons, List.foldlM_cons]
    rw [hsplit] at hspaced hincreasing
    have hlength : done.length + 1 = (done ++ [p]).length := by simp
    rw [hlength, hsplit]
    constructor
    · refine (safe_insertGhost hsource (by rw [hx]; nofun)).bind fun rows₁ hrows₁ => ?_
      obtain ⟨hrising₁, hperm₁⟩ := hnext rows₁ hrows₁
      exact (ih _ hspaced hincreasing hrising₁ hperm₁).1
    · intro rows' h
      obtain ⟨rows₁, hrows₁, hrest⟩ := bind_eq_ok.mp h
      obtain ⟨hrising₁, hperm₁⟩ := hnext rows₁ hrows₁
      exact (ih _ hspaced hincreasing hrising₁ hperm₁).2 rows' hrest

/-! ## A change without room -/

/-- The row keeps its rank, and no ghost stands between the two rows of its change. -/
structure Unghosted (window : QuestionnaireWindow) (a b : WorkingRow) (r : Nat)
    (rows : List WorkingRow) : Prop where
  rising : Rising WorkingRow.timestampNs rows
  rank : rank WorkingRow.timestampNs a.timestampNs (selectedOf window rows) = r
  none_between : ∀ row ∈ selectedOf window rows, row.kind = .ghostNonusage →
    ¬(a.timestampNs < row.timestampNs ∧ row.timestampNs < b.timestampNs)

theorem Unghosted.insertGhost {r : Nat} {turn : Nat × Nat} (h : Unghosted window a b r rows)
    (hpositive : 0 < configuration.ghostOffsetNs)
    (hroom : b.timestampNs ≤ a.timestampNs + configuration.ghostOffsetNs)
    (hturn : r ≤ turn.1 + turn.2)
    (hstep : Adapters.insertGhost window configuration rows turn = .ok rows') :
    Unghosted window a b r rows' := by
  obtain ⟨source, x, hsource, -, hfree, rfl⟩ := insertGhost_eq_ok hstep
  have hlate : a.timestampNs ≤ source.timestampNs :=
    (selectedOf_rising window h.rising).le_of_rank_le (h.rank.trans_le hturn) hsource
  have hghost : (ghostOf window configuration source x).timestampNs =
      source.timestampNs + configuration.ghostOffsetNs := rfl
  have hperm := selectedOf_insertAt_ghost window configuration source x rows
  refine ⟨insertAt_ghost_rising h.rising hfree, ?_, fun row hrow hkind => ?_⟩
  · rw [rank_perm hperm, rank_cons, if_neg (by omega), Nat.add_zero, h.rank]
  · obtain rfl | hrow := List.mem_cons.mp (hperm.mem_iff.mp hrow)
    · omega
    · exact h.none_between row hrow hkind

theorem Unghosted.run {r : Nat} {turns : List (Nat × Nat)} (h : Unghosted window a b r rows)
    (hpositive : 0 < configuration.ghostOffsetNs)
    (hroom : b.timestampNs ≤ a.timestampNs + configuration.ghostOffsetNs)
    (hturns : ∀ turn ∈ turns, r ≤ turn.1 + turn.2)
    (hrun : turns.foldlM (Adapters.insertGhost window configuration) rows = .ok rows') :
    Unghosted window a b r rows' := by
  induction turns generalizing rows with
  | nil =>
    obtain rfl := Except.ok.inj hrun
    exact h
  | cons turn turns ih =>
    obtain ⟨hturn, hturns⟩ := List.forall_mem_cons.mp hturns
    rw [List.foldlM_cons] at hrun
    obtain ⟨rows₁, hrows₁, hrest⟩ := bind_eq_ok.mp hrun
    exact ih (h.insertGhost hpositive hroom hturn hrows₁) hturns hrest

/-! ## The sessions -/

theorem safe_timestampAt {selected : List WorkingRow} {i : Nat} (h : i < selected.length) :
    Safe (timestampAt selected i) := by
  unfold timestampAt
  rw [List.getElem?_eq_getElem h]
  exact safe_ok _

theorem safe_sessionBetween {selected : List WorkingRow} {kind : EmaScreenSessionKind} {id : Int}
    {first last : Nat} (hfirst : first < selected.length) (hlast : last < selected.length) :
    Safe (sessionBetween selected kind id first last) :=
  (safe_timestampAt hfirst).bind fun _ _ => (safe_timestampAt hlast).bind fun _ _ => safe_ok _

theorem mem_uniqueIdsInOrder {selected : List WorkingRow} {select : WorkingRow → Option Int}
    {id : Int} :
    id ∈ uniqueIdsInOrder selected select ↔ ∃ row ∈ selected, select row = some id := by
  unfold uniqueIdsInOrder
  rw [List.mem_reverse, List.mem_dedup, List.mem_reverse, List.mem_filterMap]

/-- An identifier of the rows has a first and a last index, both in range. -/
theorem firstAndLast_indicesOf {selected : List WorkingRow} {select : WorkingRow → Option Int}
    {id : Int} (h : id ∈ uniqueIdsInOrder selected select) :
    ∃ bounds, firstAndLast (indicesOf selected select id) = .ok bounds ∧
      bounds.1 < selected.length ∧ bounds.2 < selected.length := by
  obtain ⟨row, hrow, hid⟩ := mem_uniqueIdsInOrder.mp h
  have hnoted : ∃ i, (row, i) ∈ positions (fun row => decide (select row = some id)) 0 selected :=
    exists_mem_positions 0 hrow (decide_eq_true hid)
  obtain ⟨i, hi⟩ := hnoted
  have hne : indicesOf selected select id ≠ [] :=
    List.ne_nil_of_mem (List.mem_map_of_mem (f := Prod.snd) hi)
  have hrange : ∀ j ∈ indicesOf selected select id, j < selected.length := by
    intro j hj
    obtain ⟨cell, hcell, rfl⟩ := List.mem_map.mp hj
    exact lt_of_mem_positions hcell
  refine ⟨((indicesOf selected select id).head hne, (indicesOf selected select id).getLast hne),
    ?_, hrange _ (List.head_mem hne), hrange _ (List.getLast_mem hne)⟩
  unfold firstAndLast
  rw [List.head?_eq_some_head hne, List.getLast?_eq_some_getLast hne]

theorem length_pos_of_mem_uniqueIds {selected : List WorkingRow}
    {select : WorkingRow → Option Int} {id : Int} (h : id ∈ uniqueIdsInOrder selected select) :
    0 < selected.length :=
  let ⟨_, hrow, _⟩ := mem_uniqueIdsInOrder.mp h
  List.length_pos_of_mem hrow

/-- The sessions are formed without a panic from any rows. -/
theorem safe_sessionsOf (selected : List WorkingRow) (minimum : Nat) :
    Safe (sessionsOf selected minimum) := by
  have hwhole {select : WorkingRow → Option Int} {kind : EmaScreenSessionKind} :
      Safe ((uniqueIdsInOrder selected select).mapM fun id =>
        sessionBetween selected kind id 0 (selected.length - 1)) := by
    refine safe_mapM fun id hid => ?_
    have hpos := length_pos_of_mem_uniqueIds hid
    exact safe_sessionBetween hpos (by omega)
  refine .ite_refused ?_
  split
  · exact hwhole
  split
  · exact hwhole
  refine Safe.bind (safe_mapM fun id hid => ?_) fun usage _ =>
    Safe.bind (safe_mapM fun id hid => ?_) fun nonusage _ => safe_ok _
  · have hid := mem_sortByKey.mp (List.mem_filter.mp hid).1
    obtain ⟨bounds, hbounds, hfirst, hlast⟩ := firstAndLast_indicesOf hid
    rw [hbounds]
    exact (safe_ok bounds).bind fun _ h => Except.ok.inj h ▸ safe_sessionBetween hfirst hlast
  · have hpos := length_pos_of_mem_uniqueIds hid
    obtain ⟨bounds, hbounds, hfirst, hlast⟩ := firstAndLast_indicesOf hid
    rw [hbounds]
    exact (safe_ok bounds).bind fun _ h => Except.ok.inj h ▸
      safe_sessionBetween (by omega) (by omega)

/-! ## The ghosts of a result -/

/-- The window rows before ghosts are added. -/
def windowRowsOf (sourceRows : List LabeledScreenStateRow) (window : QuestionnaireWindow) :
    List WorkingRow :=
  match prepareRows sourceRows window with
  | .ok rows => selectedOf window rows
  | .error _ => []

/-- A ghost strictly between two rows. -/
def GhostBetween (a b : WorkingRow) (rows : List EmaMaterializedRow) (ghost : EmaMaterializedRow) :
    Prop :=
  ghost ∈ rows ∧ ghost.kind = .ghostNonusage ∧ a.timestampNs < ghost.timestampNs ∧
    ghost.timestampNs < b.timestampNs

/-- Every change has exactly one ghost between its two rows, with the shifted identifier of the
first; there is no other ghost, and the times increase strictly. -/
structure GhostsInPlace (configuration : EmaScreenSessionConfiguration)
    (windowRows : List WorkingRow) (rows : List EmaMaterializedRow) : Prop where
  one : ∀ p a b x, ChangeAt windowRows p a b → a.usageId = some x →
    ∃ ghost, GhostBetween a b rows ghost ∧
      ghost.nonusageId = some (x + configuration.ghostNonusageIdOffset) ∧
      ∀ other, GhostBetween a b rows other → other = ghost
  noOther : ∀ ghost ∈ rows, ghost.kind = .ghostNonusage →
    ∃ p a b, ChangeAt windowRows p a b ∧ GhostBetween a b rows ghost
  increasing : (rows.map EmaMaterializedRow.timestampNs).Pairwise (· < ·)

/-- The two rows of every change are further apart than the ghost offset. -/
def ChangesSpaced (configuration : EmaScreenSessionConfiguration) (windowRows : List WorkingRow) :
    Prop :=
  ∀ p a b, ChangeAt windowRows p a b →
    a.timestampNs + configuration.ghostOffsetNs < b.timestampNs

theorem mem_transitions_spaced (hspaced : ChangesSpaced configuration windowRows) :
    ∀ p ∈ transitionsFrom 0 windowRows, Spaced configuration windowRows p := by
  intro p hp
  obtain ⟨a, b, hchange⟩ := mem_transitions.mp hp
  exact ⟨a, b, hchange, hspaced p a b hchange⟩

/-- A ghost with room stands between the rows of its own change only. -/
theorem eq_of_ghost_between (hwindow : Rising WorkingRow.timestampNs windowRows)
    (hpositive : 0 < configuration.ghostOffsetNs) {q : Nat} {c d : WorkingRow}
    (hp : ChangeAt windowRows p a b) (hq : ChangeAt windowRows q c d)
    (hroom : c.timestampNs + configuration.ghostOffsetNs < d.timestampNs)
    (hleft : a.timestampNs < c.timestampNs + configuration.ghostOffsetNs)
    (hright : c.timestampNs + configuration.ghostOffsetNs < b.timestampNs) : q = p := by
  obtain hlt | heq | hgt := Nat.lt_trichotomy q p
  · have hle := hwindow.time_le hlt hq.right hp.left
    omega
  · exact heq
  · have hle := hwindow.time_le hgt hp.right hq.left
    omega

/-- Where all changes have room, every ghost is in place. -/
theorem ghostsInPlace_of_perm (hwindow : Rising WorkingRow.timestampNs windowRows)
    (hnone : ∀ row ∈ windowRows, row.kind ≠ .ghostNonusage)
    (hpositive : 0 < configuration.ghostOffsetNs)
    (hspaced : ChangesSpaced configuration windowRows)
    (hrising : Rising WorkingRow.timestampNs rows)
    (hperm : (selectedOf window rows).Perm
      (ghostsAt window configuration windowRows (transitionsFrom 0 windowRows) ++ windowRows)) :
    GhostsInPlace configuration windowRows
      ((selectedOf window rows).map WorkingRow.materialized) := by
  -- the ghosts among the rows are the ghosts of the changes
  have hghost : ∀ row ∈ selectedOf window rows, row.kind = .ghostNonusage →
      ∃ q c d y, ChangeAt windowRows q c d ∧ c.usageId = some y ∧
        row = ghostOf window configuration c y := by
    intro row hrow hkind
    obtain hrow | hrow := List.mem_append.mp (hperm.mem_iff.mp hrow)
    · obtain ⟨q, hq, c, y, hc, hy, rfl⟩ := mem_ghostsAt.mp hrow
      obtain ⟨c', d, hchange⟩ := mem_transitions.mp hq
      obtain rfl := Option.some.inj (hchange.left.symm.trans hc)
      exact ⟨q, _, d, y, hchange, hy, rfl⟩
    · exact absurd hkind (hnone row hrow)
  constructor
  · intro p a b x hchange hx
    have hmem : ghostOf window configuration a x ∈ selectedOf window rows :=
      hperm.mem_iff.mpr (List.mem_append_left _ (mem_ghostsAt.mpr
        ⟨p, mem_transitions.mpr ⟨a, b, hchange⟩, a, x, hchange.left, hx, rfl⟩))
    refine ⟨(ghostOf window configuration a x).materialized, ⟨List.mem_map_of_mem hmem, rfl,
      lt_add_of_pos_right _ hpositive, hspaced p a b hchange⟩, rfl, ?_⟩
    rintro other ⟨hother, hkind, hleft, hright⟩
    obtain ⟨row, hrow, rfl⟩ := List.mem_map.mp hother
    obtain ⟨q, c, d, y, hq, hy, rfl⟩ := hghost row hrow hkind
    obtain rfl := eq_of_ghost_between hwindow hpositive hchange hq (hspaced q c d hq) hleft hright
    obtain rfl := Option.some.inj (hchange.left.symm.trans hq.left)
    obtain rfl := Option.some.inj (hx.symm.trans hy)
    rfl
  · intro ghost hmem hkind
    obtain ⟨row, hrow, rfl⟩ := List.mem_map.mp hmem
    obtain ⟨q, c, d, y, hq, hy, rfl⟩ := hghost row hrow hkind
    exact ⟨q, c, d, hq, hmem, rfl, lt_add_of_pos_right _ hpositive, hspaced q c d hq⟩
  · rw [List.map_map, List.pairwise_map]
    exact selectedOf_rising window hrising

/-- A list is all good, or its first bad element ends a good stretch. -/
theorem exists_first_bad {α : Type} {good : α → Prop} {l : List α} (h : ¬∀ x ∈ l, good x) :
    ∃ before x after, l = before ++ x :: after ∧ (∀ y ∈ before, good y) ∧ ¬good x := by
  induction l with
  | nil => exact absurd (fun x hx => absurd hx List.not_mem_nil) h
  | cons x l ih =>
    by_cases hx : good x
    · have hl : ¬∀ y ∈ l, good y := fun hl => h (List.forall_mem_cons.mpr ⟨hx, hl⟩)
      obtain ⟨before, y, after, rfl, hbefore, hy⟩ := ih hl
      exact ⟨x :: before, y, after, rfl, List.forall_mem_cons.mpr ⟨hx, hbefore⟩, hy⟩
    · exact ⟨[], x, l, rfl, fun y hy => absurd hy List.not_mem_nil, hx⟩

/-- Where a change has no room, no ghost comes between its two rows. -/
theorem exists_unghosted (hprepared : Prepared rows)
    (hpositive : 0 < configuration.ghostOffsetNs)
    (hnot : ¬ChangesSpaced configuration (selectedOf window rows))
    (hrun : insertGhosts window configuration rows (transitionsFrom 0 (selectedOf window rows)) =
      .ok rows') :
    ∃ p a b r, ChangeAt (selectedOf window rows) p a b ∧ Unghosted window a b r rows' := by
  have hwindow : Rising WorkingRow.timestampNs (selectedOf window rows) :=
    selectedOf_rising window hprepared.rising
  have hbad : ¬∀ p ∈ transitionsFrom 0 (selectedOf window rows),
      Spaced configuration (selectedOf window rows) p := by
    refine fun hall => hnot fun p a b hchange => ?_
    obtain ⟨a', b', hchange', hroom⟩ := hall p (mem_transitions.mpr ⟨a, b, hchange⟩)
    obtain rfl := Option.some.inj (hchange.left.symm.trans hchange'.left)
    obtain rfl := Option.some.inj (hchange.right.symm.trans hchange'.right)
    exact hroom
  obtain ⟨before, p, after, hsplit, hbefore, hp⟩ := exists_first_bad hbad
  have hincreasing : (before ++ p :: after).Pairwise (· < ·) :=
    hsplit ▸ transitionsFrom_pairwise 0 (selectedOf window rows)
  obtain ⟨hbeforeInc, hrestInc, hacross⟩ := List.pairwise_append.mp hincreasing
  have hpmem : p ∈ transitionsFrom 0 (selectedOf window rows) :=
    hsplit ▸ List.mem_append_right _ List.mem_cons_self
  obtain ⟨a, b, hchange⟩ := mem_transitions.mp hpmem
  have hroom : b.timestampNs ≤ a.timestampNs + configuration.ghostOffsetNs :=
    not_lt.mp fun hroom => hp ⟨a, b, hchange, hroom⟩
  -- up to the change the ghosts are in place
  unfold insertGhosts at hrun
  rw [hsplit, List.zipIdx_append, List.foldlM_append, bind_eq_ok] at hrun
  obtain ⟨rows₁, hrows₁, hrest⟩ := hrun
  have hstart : (selectedOf window rows).Perm (ghostsAt window configuration
      (selectedOf window rows) [] ++ selectedOf window rows) := List.Perm.refl _
  obtain ⟨hrising₁, hperm₁⟩ := (insertGhosts_spaced [] hwindow hbefore hbeforeInc
    hprepared.rising hstart).2 rows₁ hrows₁
  have hlower : ∀ q ∈ before, q < p := fun q hq => hacross q hq p List.mem_cons_self
  have hstart₁ : Unghosted window a b (p + before.length) rows₁ := by
    refine ⟨hrising₁, rank_shifted hwindow hbefore hlower hchange.left hperm₁, ?_⟩
    rintro row hrow hkind ⟨hleft, -⟩
    obtain hrow | hrow := List.mem_append.mp (hperm₁.mem_iff.mp hrow)
    · exact lt_asymm hleft (ghost_lt hwindow hbefore hlower hchange.left hrow)
    · exact hprepared.noGhost row (List.mem_of_mem_filter hrow) hkind
  -- from the change on every source is late
  refine ⟨p, a, b, _, hchange, hstart₁.run hpositive hroom (fun turn hturn => ?_) hrest⟩
  have hindex := List.mem_zipIdx hturn
  have hmem : turn.1 ∈ p :: after := List.fst_mem_of_mem_zipIdx hturn
  have hlate : p ≤ turn.1 := by
    obtain heq | hmem := List.mem_cons.mp hmem
    · exact heq.ge
    · exact (List.rel_of_pairwise_cons hrestInc hmem).le
  omega

/-- A call behind its checks. -/
theorem materialize_eq (hcheck : checkWindow window configuration = .ok ())
    (hprepare : prepareRows sourceRows window = .ok rows) :
    materializeEmaScreenSessions sourceRows window configuration =
      if (selectedOf window rows).length = 2 then .error (.refused .noAssignedRows)
      else
        insertGhosts window configuration rows (transitionsFrom 0 (selectedOf window rows)) >>=
          fun rows' => sessionsOf (selectedOf window rows')
              configuration.minimumInclusiveMixedUsageRowCount >>=
            fun sessions => .ok ⟨(selectedOf window rows').map WorkingRow.materialized, sessions⟩ := by
  unfold materializeEmaScreenSessions
  rw [hcheck, hprepare]
  rfl

theorem offset_pos_of_checkWindow (hcheck : checkWindow window configuration = .ok ()) :
    0 < configuration.ghostOffsetNs := by
  obtain ⟨-, h⟩ := ite_error_eq_ok.mp hcheck
  obtain ⟨-, h⟩ := ite_error_eq_ok.mp h
  obtain ⟨-, h⟩ := ite_error_eq_ok.mp h
  obtain ⟨hnot, -⟩ := ite_error_eq_ok.mp h
  omega

/-- What is neither refused nor a panic is a result. -/
theorem Safe.exists_ok {α : Type} {x : Except EmaHalt α} (h : Safe x)
    (haccepted : ∀ error, x ≠ .error (.refused error)) : ∃ y, x = .ok y := by
  cases x with
  | ok y => exact ⟨y, rfl⟩
  | error halt =>
    cases halt with
    | refused error => exact absurd rfl (haccepted error)
    | panicked => exact absurd rfl h

/-- The parts of a call that is not refused. -/
theorem materialize_of_not_refused
    (haccepted : ∀ error, materializeEmaScreenSessions sourceRows window configuration ≠
      .error (.refused error)) :
    ∃ rows, prepareRows sourceRows window = .ok rows ∧ 0 < configuration.ghostOffsetNs ∧
      (Safe (insertGhosts window configuration rows
          (transitionsFrom 0 (selectedOf window rows))) →
        ∃ result, materializeEmaScreenSessions sourceRows window configuration = .ok result) ∧
      ∀ result, materializeEmaScreenSessions sourceRows window configuration = .ok result →
        ∃ rows', insertGhosts window configuration rows
            (transitionsFrom 0 (selectedOf window rows)) = .ok rows' ∧
          result.rows = (selectedOf window rows').map WorkingRow.materialized := by
  have hcheck : ∃ done, checkWindow window configuration = .ok done := by
    refine safe_checkWindow.exists_ok fun error h => haccepted error ?_
    unfold materializeEmaScreenSessions
    rw [h]
    rfl
  obtain ⟨⟨⟩, hcheck⟩ := hcheck
  have hprepare : ∃ rows, prepareRows sourceRows window = .ok rows := by
    refine safe_prepareRows.exists_ok fun error h => haccepted error ?_
    unfold materializeEmaScreenSessions
    rw [hcheck, h]
    rfl
  obtain ⟨rows, hprepare⟩ := hprepare
  have heq := materialize_eq hcheck hprepare
  refine ⟨rows, hprepare, offset_pos_of_checkWindow hcheck, fun hsafe => ?_, fun result h => ?_⟩
  · refine Safe.exists_ok ?_ haccepted
    rw [heq]
    exact .ite_refused (hsafe.bind fun rows' _ => (safe_sessionsOf _ _).bind fun _ _ => safe_ok _)
  · rw [heq] at h
    obtain ⟨-, h⟩ := ite_error_eq_ok.mp h
    obtain ⟨rows', hrun, h⟩ := bind_eq_ok.mp h
    obtain ⟨sessions, -, h⟩ := bind_eq_ok.mp h
    exact ⟨rows', hrun, (congrArg EmaScreenSessionMaterialization.rows (Except.ok.inj h)).symm⟩

/-- A call that is not refused gives the promised rows exactly when all changes have room; otherwise
it panics or misplaces a ghost. -/
theorem materialize_ghostsInPlace_iff (sourceRows : List LabeledScreenStateRow)
    (window : QuestionnaireWindow) (configuration : EmaScreenSessionConfiguration)
    (haccepted : ∀ error, materializeEmaScreenSessions sourceRows window configuration ≠
      .error (.refused error)) :
    (∃ result, materializeEmaScreenSessions sourceRows window configuration = .ok result ∧
      GhostsInPlace configuration (windowRowsOf sourceRows window) result.rows) ↔
      ChangesSpaced configuration (windowRowsOf sourceRows window) := by
  obtain ⟨rows, hprepare, hpositive, hok, hresult⟩ := materialize_of_not_refused haccepted
  have hprepared := prepared_of_prepareRows hprepare
  have hwindow : windowRowsOf sourceRows window = selectedOf window rows := by
    unfold windowRowsOf
    rw [hprepare]
  rw [hwindow]
  constructor
  · rintro ⟨result, hmaterialize, hplace⟩
    obtain ⟨rows', hrun, hrows⟩ := hresult result hmaterialize
    by_contra hnot
    obtain ⟨p, a, b, r, hchange, hunghosted⟩ := exists_unghosted hprepared hpositive hnot hrun
    obtain ⟨x, hx⟩ := hchange.exists_usageId
    obtain ⟨ghost, ⟨hmem, hkind, hbetween⟩, -⟩ := hplace.one p a b x hchange hx
    rw [hrows] at hmem
    obtain ⟨row, hrow, rfl⟩ := List.mem_map.mp hmem
    exact hunghosted.none_between row hrow hkind hbetween
  · intro hspaced
    have hrising := selectedOf_rising window hprepared.rising
    have hstart : (selectedOf window rows).Perm (ghostsAt window configuration
        (selectedOf window rows) [] ++ selectedOf window rows) := List.Perm.refl _
    obtain ⟨hsafe, hrows⟩ := insertGhosts_spaced [] hrising
      (mem_transitions_spaced hspaced) (transitionsFrom_pairwise 0 _) hprepared.rising hstart
    obtain ⟨result, hmaterialize⟩ := hok hsafe
    obtain ⟨rows', hrun, heq⟩ := hresult result hmaterialize
    obtain ⟨hrising', hperm⟩ := hrows rows' hrun
    refine ⟨result, hmaterialize, ?_⟩
    rw [heq]
    exact ghostsInPlace_of_perm hrising
      (fun row hrow => hprepared.noGhost row (List.mem_of_mem_filter hrow)) hpositive hspaced
      hrising' hperm

/-- Two rows further apart than the ghost offset. -/
def spacedSourceRows : List LabeledScreenStateRow :=
  [⟨"a", 10, some "q", some 1, none⟩, ⟨"b", 40, some "q", some 2, none⟩,
    ⟨"c", 200, none, some 3, none⟩]

theorem materialize_spacedSourceRows :
    (∃ result, materializeEmaScreenSessions spacedSourceRows ⟨"q", 0, 100⟩ ⟨100, 15, 1000, 1⟩ =
      .ok result ∧ GhostsInPlace ⟨100, 15, 1000, 1⟩
        (windowRowsOf spacedSourceRows ⟨"q", 0, 100⟩) result.rows) ↔
      ChangesSpaced ⟨100, 15, 1000, 1⟩ (windowRowsOf spacedSourceRows ⟨"q", 0, 100⟩) := by
  have hok : (materializeEmaScreenSessions spacedSourceRows ⟨"q", 0, 100⟩
      ⟨100, 15, 1000, 1⟩).isOk = true := by
    decide +kernel
  refine materialize_ghostsInPlace_iff spacedSourceRows ⟨"q", 0, 100⟩ ⟨100, 15, 1000, 1⟩
    fun error h => ?_
  rw [h] at hok
  cases hok

/-- Three rows whose second change comes within the ghost offset. -/
def crowdedSourceRows : List LabeledScreenStateRow :=
  [⟨"a", 10, some "q", some 1, none⟩, ⟨"b", 20, some "q", some 2, none⟩,
    ⟨"c", 30, some "q", some 3, none⟩, ⟨"d", 200, none, some 3, none⟩]

/-- The second change takes the ghost of the first for its source. -/
theorem materialize_crowdedSourceRows :
    ¬∀ (sourceRows : List LabeledScreenStateRow) (window : QuestionnaireWindow)
      (configuration : EmaScreenSessionConfiguration),
      (∀ error, materializeEmaScreenSessions sourceRows window configuration ≠
        .error (.refused error)) →
      ∃ result, materializeEmaScreenSessions sourceRows window configuration = .ok result ∧
        GhostsInPlace configuration (windowRowsOf sourceRows window) result.rows := by
  intro h
  have hpanics : materializeEmaScreenSessions crowdedSourceRows ⟨"q", 0, 100⟩
      ⟨100, 15, 1000, 1⟩ = .error .panicked := by
    decide +kernel
  obtain ⟨result, hok, -⟩ := h crowdedSourceRows ⟨"q", 0, 100⟩ ⟨100, 15, 1000, 1⟩
    fun error herror => by cases hpanics.symm.trans herror
  cases hpanics.symm.trans hok

end Chronicle.Adapters
