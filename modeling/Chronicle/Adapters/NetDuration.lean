import Chronicle.Eyes.Evidence
import Chronicle.Library.Declarations
import Chronicle.Library.Stages

/-!
# Net durations of supplied learning sessions

Each row declares facts about a session and about its interruptions. What earlier rows declared is
kept to find contradictions, and the sums of the known interruptions are checked again when all rows
are read; the cells that are added to a row come from its own declaration.
-/

namespace Chronicle.Adapters

open Chronicle.Library Chronicle.Library.Declarations Chronicle.Library.Stages Chronicle.Eyes

/-! ## Seconds -/

/-- An `f64`: its datum, and whether it is a zero with a minus sign. -/
structure Seconds where
  datum : Binary64
  negativeZero : Bool
deriving DecidableEq

namespace Seconds

/-- `0.0` -/
def zero : Seconds := ⟨.finite 0, false⟩

/-- `x + y`, which is a negative zero only if both are. -/
protected def add (x y : Seconds) : Seconds :=
  ⟨x.datum.add y.datum, x.negativeZero && y.negativeZero⟩

/-- `x - y`, which is a negative zero only if a positive zero is taken from a negative one. -/
protected def sub (x y : Seconds) : Seconds :=
  ⟨x.datum.sub y.datum, x.negativeZero && decide (y = zero)⟩

/-- `x > y` -/
def gt (x y : Seconds) : Bool := y.datum.lt x.datum

/-- `x != y` -/
def ne (x y : Seconds) : Bool := !x.datum.eqIeee y.datum

end Seconds

/-- `RCompatibleScalar` -/
inductive RCompatibleScalar where
  | missing
  | finite (value : Seconds)
  | notANumber
  | positiveInfinity
  | negativeInfinity

namespace RCompatibleScalar

/-- `from_f64` -/
def fromF64 (value : Seconds) : RCompatibleScalar :=
  match value.datum with
  | .nan => .notANumber
  | .infinity false => .positiveInfinity
  | .infinity true => .negativeInfinity
  | .finite _ => .finite value

/-- `add` -/
protected def add : RCompatibleScalar → RCompatibleScalar → RCompatibleScalar
  | missing, _ => missing
  | _, missing => missing
  | notANumber, _ => notANumber
  | _, notANumber => notANumber
  | positiveInfinity, negativeInfinity => notANumber
  | negativeInfinity, positiveInfinity => notANumber
  | positiveInfinity, _ => positiveInfinity
  | _, positiveInfinity => positiveInfinity
  | negativeInfinity, _ => negativeInfinity
  | _, negativeInfinity => negativeInfinity
  | finite left, finite right => fromF64 (left.add right)

/-- `value.map_or(RCompatibleScalar::Missing, RCompatibleScalar::Finite)` -/
def ofOption : Option Seconds → RCompatibleScalar
  | none => missing
  | some value => finite value

end RCompatibleScalar

/-- The sum of the first row that `grouped_scalar_sum_then_project_unique` returns where all rows
are of one group and both divisors are `1.0`. -/
def groupedScalarSum (values : List RCompatibleScalar) : RCompatibleScalar :=
  values.foldl .add (.finite .zero)

/-- `total` -/
def total (terms : List (Option Seconds)) : Except String (Option Seconds) :=
  if terms.isEmpty then .ok (some .zero)
  else match groupedScalarSum (terms.map .ofOption) with
    | .missing => .ok none
    | .finite value =>
        if value.datum.isFinite && value.datum.ge (.finite 0) then .ok (some value)
        else .error "interruption duration total exceeds the finite nonnegative domain"
    | _ => .error "interruption duration total exceeds the finite nonnegative domain"

/-- `total` of terms that are all known; the error stands for the panic of `expect`. -/
def knownTotal (terms : List Seconds) : Except String Seconds :=
  total (terms.map some) >>= fun sum =>
    match sum with
    | some value => .ok value
    | none => .error "only known finite terms supplied"

/-! ## Reading -/

/-- `InterruptionEntry`, with the text of its raw duration. -/
structure InterruptionEntry where
  interruptionId : String
  learningSessionId : String
  kind : String
  durationSeconds : String
deriving DecidableEq

/-- A record of a table. -/
abbrev Record := List String

/-- What the adapter uses of its libraries: the reader and the writer of tables, whose records all
have as many cells as the header, JSON texts, and the texts of numbers. -/
structure Formats where
  headers : List UInt8 → Except String Record
  records : List UInt8 → Except String (List Record)
  write : List Record → List UInt8
  entries : String → Except String (List InterruptionEntry)
  jsonString : String → Except String String
  parse : String → Option Seconds
  text : Seconds → String

/-- `ADAPTER` -/
def netDurationAdapter : String := "chronicle.supplied-learning-session-net-duration"

/-- `FIELDS` -/
def netDurationFields : List String :=
  ["source_row_id", "participant_id", "source_device_id", "source_stream_id", "source_platform",
    "learning_session_id", "learning_app_id", "gross_duration_seconds", "duration_unit",
    "input_stage", "interruption_inventory_stage", "suspending_interruptions_json"]

/-- `OUTPUTS` -/
def netDurationOutputs : List String :=
  ["total_suspending_duration_seconds", "net_duration_seconds", "net_duration_status"]

/-- `negative_nonzero` -/
def negativeNonzero (raw : String) : Bool :=
  match raw.toList with
  | '-' :: unsigned =>
      (unsigned.takeWhile fun c => !(c == 'e' || c == 'E')).any fun c => '1' ≤ c && c ≤ '9'
  | _ => false

variable (formats : Formats)

/-- `duration` -/
def duration (raw : String) : Except String (Option Seconds) :=
  if raw.isEmpty then .ok none
  else match formats.parse raw with
    | none => .error "duration requires a numeric seconds scalar"
    | some value =>
        if !value.datum.isFinite || value.datum.isNegative || negativeNonzero raw then
          .error "duration requires finite nonnegative seconds"
        else .ok (some value)

/-- `json_duration` -/
def jsonDuration (raw : String) : Except String (Option Seconds) :=
  if raw = "null" then .ok none
  else if raw.toList.head? = some '"' then formats.jsonString raw >>= duration formats
  else if raw.toList.head?.any fun c => c == '-' || c.isDigit then duration formats raw
  else .error "duration_seconds must be an explicit numeric scalar, numeric text or null"

/-- `value(name)`, the cell of a record under a name of the header. -/
def cellOf (headers : Record) (record : Record) (name : String) : String :=
  record.getD (headers.idxOf name) ""

/-- The checks of the header: unique names of which none is computed, and every field. -/
def checkHeaders (headers : Record) : Except String Unit := do
  if ¬headers.Nodup ∨ headers.any fun name => netDurationOutputs.contains name then
    .error "requires unique raw columns without supplied computed outputs"
  else netDurationFields.forM fun name =>
    if name ∈ headers then .ok ()
    else .error (netDurationAdapter ++ " requires " ++ name)

/-! ## Rows -/

/-- The facts about a session. -/
structure SessionFacts where
  participant : String
  stream : String
  app : String
  gross : Option Seconds
  inventory : Option (Finset String)

/-- The facts about an interruption. -/
structure InterruptionFacts where
  participant : String
  stream : String
  session : String
  seconds : Option Seconds

/-- `matches!((prior, facts), (Some(a), Some(b)) if a != b)` -/
def contradict : Option Seconds → Option Seconds → Bool
  | some a, some b => a.ne b
  | _, _ => false

/-- The same of two inventories. -/
def inventoriesDiffer : Option (Finset String) → Option (Finset String) → Bool
  | some a, some b => decide (a ≠ b)
  | _, _ => false

/-- The facts that are kept of an interruption: what was known before only keeps later facts
consistent, and fills no term of a row. -/
def mergeInterruption (prior : Option InterruptionFacts) (facts : InterruptionFacts) :
    Except String InterruptionFacts :=
  match prior with
  | none => .ok facts
  | some prior =>
      if prior.participant ≠ facts.participant ∨ prior.stream ≠ facts.stream ∨
          prior.session ≠ facts.session ∨ contradict prior.seconds facts.seconds then
        .error "interruption identity has contradictory known owner/session/duration facts"
      else .ok { facts with seconds := facts.seconds.or prior.seconds }

/-- The facts that are kept of a session. -/
def mergeSession (prior : Option SessionFacts) (facts : SessionFacts) :
    Except String SessionFacts :=
  match prior with
  | none => .ok facts
  | some prior =>
      if prior.participant ≠ facts.participant ∨ prior.stream ≠ facts.stream ∨
          prior.app ≠ facts.app ∨ contradict prior.gross facts.gross ∨
          inventoriesDiffer prior.inventory facts.inventory then
        .error ("learning-session identity has contradictory known " ++
          "owner/app/gross/inventory facts")
      else .ok { facts with
        gross := facts.gross.or prior.gross
        inventory := facts.inventory.or prior.inventory }

/-- The variables of the loop over the records. -/
structure NetProgress where
  rowFacts : Store (String × String × String) Record
  sessions : Store (String × String) SessionFacts
  interruptions : Store (String × String) InterruptionFacts
  declaredInventories : List ((String × String) × List String)
  output : List Record

/-- The variables of the loop over the entries of a record. -/
structure EntryProgress where
  members : Finset String
  memberOrder : List String
  interruptions : Store (String × String) InterruptionFacts
  terms : List (Option Seconds)

/-- One turn of the loop over the entries. -/
def declareEntry (participant device stream session : String) (progress : EntryProgress)
    (entry : InterruptionEntry) : Except String EntryProgress :=
  let id := entry.interruptionId
  if isBlank id then .error "interruption_id must be supplied"
  else if entry.learningSessionId ≠ session ∨ entry.kind ≠ "admitted_suspending" then
    .error "interruption requires matching session and admitted_suspending role"
  else if id ∈ progress.members then
    .error ("qualified disjoint inventory requires distinct interruption identities; " ++
      "no deduplication is inferred")
  else do
    let seconds ← jsonDuration formats entry.durationSeconds
    let key := (device, id)
    let facts : InterruptionFacts := ⟨participant, stream, session, seconds⟩
    let facts ← mergeInterruption (progress.interruptions key) facts
    .ok ⟨insert id progress.members, progress.memberOrder ++ [id],
      Function.update progress.interruptions key (some facts), progress.terms ++ [seconds]⟩

/-- The subtotal of an inventory with unknown terms may not exceed a gross duration. -/
def checkSubtotal (gross : Option Seconds) (terms : List (Option Seconds)) : Except String Unit :=
  if terms.any Option.isNone then do
    let known ← knownTotal terms.reduceOption
    if gross.any fun gross => known.gt gross then
      .error "known admitted interruption subtotal exceeds supplied gross-session duration"
    else .ok ()
  else .ok ()

/-- `result`: the net duration, or why there is none. -/
def netResult (gross : Option Seconds) (suppliedInventory : Bool)
    (interruptionTotal : Option Seconds) : Except String (Except String Seconds) :=
  if !suppliedInventory then .ok (.error "missing_interruption_inventory")
  else match gross, interruptionTotal with
    | none, _ => .ok (.error "missing_gross_duration")
    | _, none => .ok (.error "missing_interruption_duration")
    | some gross, some interrupted =>
        if interrupted.gt gross then
          .error "admitted interruption total exceeds supplied gross-session duration"
        else .ok (.ok (gross.sub interrupted))

/-- The cells that are added to a record. -/
def computedCells (gross : Option Seconds) (suppliedInventory : Bool)
    (terms : List (Option Seconds)) : Except String Record := do
  let interruptionTotal ← if suppliedInventory then total terms else .ok none
  if suppliedInventory then checkSubtotal gross terms else .ok ()
  let result ← netResult gross suppliedInventory interruptionTotal
  let first := (interruptionTotal.map formats.text).getD ""
  match result with
  | .ok value =>
      .ok [first, formats.text value, "computed_binary64_gross_minus_disjoint_interruptions"]
  | .error reason => .ok [first, "", "unavailable:" ++ reason]

/-- The checks of a record's own cells. -/
def checkRecord (value : String → String) : Except String Unit := do
  ["source_row_id", "participant_id", "source_device_id", "source_stream_id",
    "learning_session_id", "learning_app_id"].forM fun name =>
      if isBlank (value name) then .error (name ++ " must be supplied") else .ok ()
  if value "source_platform" ≠ "Android" ∨ value "duration_unit" ≠ "s" ∨
      value "input_stage" ≠ "caller-qualified-complete-gross-learning-session" ∨
      value "interruption_inventory_stage" ≠
        "caller-qualified-complete-disjoint-suspending-durations" then
    .error ("requires explicitly Android complete gross-session seconds and a " ++
      "caller-qualified complete disjoint suspending-duration inventory")
  else .ok ()

/-- The entries of the inventory, if one is supplied. -/
def suppliedEntries (json : String) : Except String (Option (List InterruptionEntry)) :=
  if json.isEmpty then .ok none
  else match formats.entries json with
    | .ok entries => .ok (some entries)
    | .error e => .error ("invalid supplied interruption inventory: " ++ e)

/-- One turn of the loop over the records. -/
def declareRow (headers : Record) (progress : NetProgress) (record : Record) :
    Except String NetProgress := do
  let value := cellOf headers record
  checkRecord value
  let participant := value "participant_id"
  let device := value "source_device_id"
  let stream := value "source_stream_id"
  let session := value "learning_session_id"
  let rowKey := (device, stream, value "source_row_id")
  if (progress.rowFacts rowKey).any fun prior => decide (prior ≠ record) then
    .error "source row identity has conflicting lexical input"
  else
    let gross ← duration formats (value "gross_duration_seconds")
    let supplied ← suppliedEntries formats (value "suspending_interruptions_json")
    let inventory ← (supplied.getD []).foldlM
      (declareEntry formats participant device stream session)
      ⟨∅, [], progress.interruptions, []⟩
    let key := (device, session)
    let facts : SessionFacts := ⟨participant, stream, value "learning_app_id", gross,
      supplied.map fun _ => inventory.members⟩
    let facts ← mergeSession (progress.sessions key) facts
    let cells ← computedCells formats gross supplied.isSome inventory.terms
    .ok {
      rowFacts := Function.update progress.rowFacts rowKey (some record)
      sessions := Function.update progress.sessions key (some facts)
      interruptions := inventory.interruptions
      declaredInventories := progress.declaredInventories ++
        if supplied.isSome then [(key, inventory.memberOrder)] else []
      output := progress.output ++ [record ++ cells] }

/-- One turn of the last loop. The keys are always in their maps, so that the indexing of the source
does not panic. -/
def reconcile (progress : NetProgress) (declared : (String × String) × List String) :
    Except String Unit :=
  match (progress.sessions declared.1).bind SessionFacts.gross with
  | none => .ok ()
  | some gross => do
      let known ← knownTotal (declared.2.filterMap fun id =>
        (progress.interruptions (declared.1.1, id)).bind InterruptionFacts.seconds)
      if known.gt gross then
        .error ("known admitted interruption subtotal exceeds supplied gross-session duration " ++
          "across declarations")
      else .ok ()

/-- The maps and lists before the first record. -/
def NetProgress.new : NetProgress := ⟨fun _ => none, fun _ => none, fun _ => none, [], []⟩

/-- The table that `csv` writes, from the one that it reads. -/
def netDurations (headers : Record) (records : List Record) : Except String (List Record) := do
  let progress ← records.foldlM (declareRow formats headers) .new
  progress.declaredInventories.forM (reconcile progress)
  .ok ((headers ++ netDurationOutputs) :: progress.output)

/-- `csv` -/
def csv (raw : List UInt8) : Except String (List UInt8 × Nat) := do
  let headers ← formats.headers raw
  checkHeaders headers
  let records ← formats.records raw
  let rows ← netDurations formats headers records
  .ok (formats.write rows, records.length)

/-! ## What a row declares -/

section Merging

theorem contradict_comm (a b : Option Seconds) : contradict a b = contradict b a := by
  cases a with
  | none => cases b <;> rfl
  | some x =>
      cases b with
      | none => rfl
      | some y => exact congrArg not (Binary64.eqIeee_comm x.datum y.datum)

/-- Known seconds that do not contradict are the same datum. -/
theorem datum_eq_of_contradict {x y : Seconds} (h : contradict (some x) (some y) = false) :
    x.datum = y.datum :=
  Binary64.eq_of_eqIeee ((Bool.not_eq_false' _).mp h)

theorem contradict_or {a b : Option Seconds} (h : contradict a b = false) (c : Option Seconds) :
    contradict (a.or b) c = (contradict a c || contradict b c) := by
  cases a with
  | none => rfl
  | some x =>
      cases b with
      | none => exact (Bool.or_false _).symm
      | some y =>
          have hsame : contradict (some x) c = contradict (some y) c := by
            cases c with
            | none => rfl
            | some z =>
                show (!x.datum.eqIeee z.datum) = !y.datum.eqIeee z.datum
                rw [datum_eq_of_contradict h]
          show contradict (some x) c = _
          rw [← hsame, Bool.or_self]

theorem inventoriesDiffer_comm (a b : Option (Finset String)) :
    inventoriesDiffer a b = inventoriesDiffer b a := by
  cases a with
  | none => cases b <;> rfl
  | some x =>
      cases b with
      | none => rfl
      | some y => exact decide_eq_decide.mpr ne_comm

theorem inventoriesDiffer_or {a b : Option (Finset String)} (h : inventoriesDiffer a b = false)
    (c : Option (Finset String)) :
    inventoriesDiffer (a.or b) c = (inventoriesDiffer a c || inventoriesDiffer b c) := by
  cases a with
  | none => rfl
  | some x =>
      cases b with
      | none => exact (Bool.or_false _).symm
      | some y =>
          obtain rfl : x = y := not_not.mp (of_decide_eq_false h)
          exact (Bool.or_self _).symm

end Merging

/-- Records of one row key agree if they are the same. -/
def rowMerging : Merging Record where
  agrees a b := decide (a = b)
  merge a _ := a
  symm a b := decide_eq_decide.mpr eq_comm
  agrees_merge a b c h := by
    obtain rfl := of_decide_eq_true h
    exact (Bool.and_self _).symm

/-- Facts about one interruption agree if they name one owner and one known duration. -/
def interruptionMerging : Merging InterruptionFacts where
  agrees a b := decide (a.participant = b.participant ∧ a.stream = b.stream ∧
    a.session = b.session) && !contradict a.seconds b.seconds
  merge a b := { a with seconds := a.seconds.or b.seconds }
  symm a b := by
    rw [contradict_comm]
    exact congrArg (· && _) (decide_eq_decide.mpr
      ⟨fun h => ⟨h.1.symm, h.2.1.symm, h.2.2.symm⟩, fun h => ⟨h.1.symm, h.2.1.symm, h.2.2.symm⟩⟩)
  agrees_merge a b c h := by
    obtain ⟨howner, hknown⟩ := (Bool.and_eq_true _ _).mp h
    obtain ⟨hparticipant, hstream, hsession⟩ := of_decide_eq_true howner
    rw [contradict_or ((Bool.not_eq_true' _).mp hknown), ← hparticipant, ← hstream, ← hsession,
      Bool.not_or]
    cases decide (a.participant = c.participant ∧ a.stream = c.stream ∧ a.session = c.session) <;>
      cases contradict a.seconds c.seconds <;> rfl

/-- Facts about one session agree if they name one owner, one app, one known gross duration and one
known inventory. -/
def sessionMerging : Merging SessionFacts where
  agrees a b := decide (a.participant = b.participant ∧ a.stream = b.stream ∧ a.app = b.app) &&
    (!contradict a.gross b.gross && !inventoriesDiffer a.inventory b.inventory)
  merge a b := { a with gross := a.gross.or b.gross, inventory := a.inventory.or b.inventory }
  symm a b := by
    rw [contradict_comm, inventoriesDiffer_comm]
    exact congrArg (· && _) (decide_eq_decide.mpr
      ⟨fun h => ⟨h.1.symm, h.2.1.symm, h.2.2.symm⟩, fun h => ⟨h.1.symm, h.2.1.symm, h.2.2.symm⟩⟩)
  agrees_merge a b c h := by
    obtain ⟨howner, hrest⟩ := (Bool.and_eq_true _ _).mp h
    obtain ⟨hgross, hinventory⟩ := (Bool.and_eq_true _ _).mp hrest
    obtain ⟨hparticipant, hstream, happ⟩ := of_decide_eq_true howner
    rw [contradict_or ((Bool.not_eq_true' _).mp hgross),
      inventoriesDiffer_or ((Bool.not_eq_true' _).mp hinventory), ← hparticipant, ← hstream, ← happ,
      Bool.not_or, Bool.not_or]
    cases decide (a.participant = c.participant ∧ a.stream = c.stream ∧ a.app = c.app) <;>
      cases contradict a.gross c.gross <;> cases contradict b.gross c.gross <;>
      cases inventoriesDiffer a.inventory c.inventory <;> rfl

/-- What an entry says by itself, where no identity of it may be among the earlier ones. -/
def ownEntry (session : String) (members : Finset String) (entry : InterruptionEntry) :
    Option (Option Seconds) :=
  if isBlank entry.interruptionId ∨ entry.learningSessionId ≠ session ∨
      entry.kind ≠ "admitted_suspending" ∨ entry.interruptionId ∈ members then none
  else (jsonDuration formats entry.durationSeconds).toOption

/-- What the entries of an inventory say by themselves. -/
def ownEntries (session : String) :
    Finset String → List InterruptionEntry → Option (List (String × Option Seconds))
  | _, [] => some []
  | members, entry :: rest =>
      (ownEntry formats session members entry).bind fun seconds =>
        (ownEntries session (insert entry.interruptionId members) rest).map
          ((entry.interruptionId, seconds) :: ·)

/-- What a row declares by itself, and the cells that are added to it. -/
structure RowDeclaration where
  record : Record
  rowId : String
  participant : String
  device : String
  stream : String
  session : String
  app : String
  gross : Option Seconds
  supplied : Bool
  own : List (String × Option Seconds)
  cells : Record

namespace RowDeclaration

def ofRow (d : RowDeclaration) : (String × String × String) × Record :=
  ((d.device, d.stream, d.rowId), d.record)

def ofInterruptions (d : RowDeclaration) : List ((String × String) × InterruptionFacts) :=
  d.own.map fun e => ((d.device, e.1), ⟨d.participant, d.stream, d.session, e.2⟩)

def members (d : RowDeclaration) : Finset String := d.own.foldl (fun ids e => insert e.1 ids) ∅

def ofSession (d : RowDeclaration) : (String × String) × SessionFacts :=
  ((d.device, d.session), ⟨d.participant, d.stream, d.app, d.gross,
    if d.supplied then some d.members else none⟩)

def inventory (d : RowDeclaration) : List ((String × String) × List String) :=
  if d.supplied then [((d.device, d.session), d.own.map Prod.fst)] else []

end RowDeclaration

/-- What a record declares by itself, if it may stand in a table at all. -/
def ownDeclaration (headers record : Record) : Option RowDeclaration :=
  let value := cellOf headers record
  (checkRecord value).toOption.bind fun _ =>
  (duration formats (value "gross_duration_seconds")).toOption.bind fun gross =>
  (suppliedEntries formats (value "suspending_interruptions_json")).toOption.bind fun supplied =>
  (ownEntries formats (value "learning_session_id") ∅ (supplied.getD [])).bind fun own =>
  (computedCells formats gross supplied.isSome (own.map Prod.snd)).toOption.map fun cells => {
    record := record
    rowId := value "source_row_id"
    participant := value "participant_id"
    device := value "source_device_id"
    stream := value "source_stream_id"
    session := value "learning_session_id"
    app := value "learning_app_id"
    gross := gross
    supplied := supplied.isSome
    own := own
    cells := cells }

/-! ## One row -/

section Rows

variable {formats : Formats} {headers record : Record} {progress after : NetProgress}

/-- The facts that are kept of an interruption are those of a store of declarations. -/
theorem mergeInterruption_eq_ok {store next : Store (String × String) InterruptionFacts}
    {key : String × String} {facts : InterruptionFacts} :
    (∃ kept, mergeInterruption (store key) facts = .ok kept ∧
        Function.update store key (some kept) = next) ↔
      declare interruptionMerging store key facts = some next := by
  unfold declare mergeInterruption
  cases store key with
  | none => simp
  | some prior =>
      have hagrees : interruptionMerging.agrees prior facts = true ↔
          ¬(prior.participant ≠ facts.participant ∨ prior.stream ≠ facts.stream ∨
            prior.session ≠ facts.session ∨ contradict prior.seconds facts.seconds = true) := by
        simp [interruptionMerging, and_assoc]
      simp only [ite_error_eq_ok, hagrees]
      by_cases hdiffer : prior.participant ≠ facts.participant ∨ prior.stream ≠ facts.stream ∨
          prior.session ≠ facts.session ∨ contradict prior.seconds facts.seconds = true
      · rw [if_neg (not_not.mpr hdiffer)]
        exact iff_of_false (fun ⟨_, ⟨hsame, _⟩, _⟩ => hsame hdiffer) (by simp)
      · rw [if_pos hdiffer, Option.some.injEq]
        exact ⟨fun ⟨_, ⟨_, hkept⟩, hnext⟩ => by rw [← hnext, ← Except.ok.inj hkept]; rfl,
          fun hnext => ⟨_, ⟨hdiffer, rfl⟩, hnext⟩⟩

theorem mergeSession_eq_ok {store next : Store (String × String) SessionFacts}
    {key : String × String} {facts : SessionFacts} :
    (∃ kept, mergeSession (store key) facts = .ok kept ∧
        Function.update store key (some kept) = next) ↔
      declare sessionMerging store key facts = some next := by
  unfold declare mergeSession
  cases store key with
  | none => simp
  | some prior =>
      have hagrees : sessionMerging.agrees prior facts = true ↔
          ¬(prior.participant ≠ facts.participant ∨ prior.stream ≠ facts.stream ∨
            prior.app ≠ facts.app ∨ contradict prior.gross facts.gross = true ∨
            inventoriesDiffer prior.inventory facts.inventory = true) := by
        simp [sessionMerging, and_assoc]
      simp only [ite_error_eq_ok, hagrees]
      by_cases hdiffer : prior.participant ≠ facts.participant ∨ prior.stream ≠ facts.stream ∨
          prior.app ≠ facts.app ∨ contradict prior.gross facts.gross = true ∨
          inventoriesDiffer prior.inventory facts.inventory = true
      · rw [if_neg (not_not.mpr hdiffer)]
        exact iff_of_false (fun ⟨_, ⟨hsame, _⟩, _⟩ => hsame hdiffer) (by simp)
      · rw [if_pos hdiffer, Option.some.injEq]
        exact ⟨fun ⟨_, ⟨_, hkept⟩, hnext⟩ => by rw [← hnext, ← Except.ok.inj hkept]; rfl,
          fun hnext => ⟨_, ⟨hdiffer, rfl⟩, hnext⟩⟩

theorem keepRow_eq_some {store next : Store (String × String × String) Record}
    {key : String × String × String} :
    (¬(store key).any (fun prior => decide (prior ≠ record)) = true ∧
        Function.update store key (some record) = next) ↔
      declare rowMerging store key record = some next := by
  unfold declare
  cases store key with
  | none => simp
  | some prior => by_cases hsame : prior = record <;> simp [hsame, rowMerging]

theorem map_const_eq_ite {α β : Type} (supplied : Option α) (x : β) :
    supplied.map (fun _ => x) = if supplied.isSome then some x else none := by
  cases supplied <;> rfl

/-- An entry is taken exactly if what it says by itself is in order and its facts are. -/
theorem declareEntry_eq_ok {participant device stream session : String}
    {entries next : EntryProgress} {entry : InterruptionEntry} :
    declareEntry formats participant device stream session entries entry = .ok next ↔
      ∃ seconds, ownEntry formats session entries.members entry = some seconds ∧
        declare interruptionMerging entries.interruptions (device, entry.interruptionId)
          ⟨participant, stream, session, seconds⟩ = some next.interruptions ∧
        next.members = insert entry.interruptionId entries.members ∧
        next.memberOrder = entries.memberOrder ++ [entry.interruptionId] ∧
        next.terms = entries.terms ++ [seconds] := by
  obtain ⟨members, order, interruptions, terms⟩ := next
  simp only [declareEntry, ownEntry, ite_error_eq_ok, bind_eq_ok, ← mergeInterruption_eq_ok,
    Except.ok.injEq, EntryProgress.mk.injEq]
  constructor
  · rintro ⟨hblank, hrole, hnew, seconds, hseconds, kept, hkept, rfl, rfl, rfl, rfl⟩
    refine ⟨seconds, ?_, ⟨kept, hkept, rfl⟩, rfl, rfl, rfl⟩
    rw [if_neg (by tauto), hseconds]
    rfl
  · rintro ⟨seconds, hseconds, ⟨kept, hkept, rfl⟩, rfl, rfl, rfl⟩
    split at hseconds
    · cases hseconds
    · rename_i hfine
      exact ⟨by tauto, by tauto, by tauto, seconds, toOption_eq_some.mp hseconds, kept, hkept, rfl,
        rfl, rfl, rfl⟩

theorem foldlM_declareEntry {participant device stream session : String}
    {entries next : EntryProgress} {inventory : List InterruptionEntry} :
    inventory.foldlM (declareEntry formats participant device stream session) entries = .ok next ↔
      ∃ own, ownEntries formats session entries.members inventory = some own ∧
        declareAll interruptionMerging
          (own.map fun e => ((device, e.1), ⟨participant, stream, session, e.2⟩))
          entries.interruptions = some next.interruptions ∧
        next.members = own.foldl (fun ids e => insert e.1 ids) entries.members ∧
        next.memberOrder = entries.memberOrder ++ own.map Prod.fst ∧
        next.terms = entries.terms ++ own.map Prod.snd := by
  induction inventory generalizing entries with
  | nil =>
      obtain ⟨members, order, interruptions, terms⟩ := entries
      obtain ⟨members', order', interruptions', terms'⟩ := next
      simp [ownEntries, declareAll, pure, Except.pure]
      tauto
  | cons entry rest ih =>
      rw [List.foldlM_cons]
      simp only [bind_eq_ok, declareEntry_eq_ok, ih, ownEntries, Option.bind_eq_some_iff,
        Option.map_eq_some_iff]
      constructor
      · -- a run over the entries declares them in order and collects their terms
        rintro ⟨middle, ⟨seconds, hseconds, htaken, hmembers, horder, hterms⟩, own, hown, hrest,
          hmembers', horder', hterms'⟩
        refine ⟨(entry.interruptionId, seconds) :: own,
          ⟨seconds, hseconds, own, hmembers ▸ hown, rfl⟩, ?_, ?_, ?_, ?_⟩
        · exact Option.bind_eq_some_iff.mpr ⟨_, htaken, hrest⟩
        · rw [hmembers', hmembers]
          rfl
        · rw [horder', horder, List.append_assoc]
          rfl
        · rw [hterms', hterms, List.append_assoc]
          rfl
      · rintro ⟨_, ⟨seconds, hseconds, own, hown, rfl⟩, hdeclared, hmembers, horder, hterms⟩
        obtain ⟨middle, htaken, hrest⟩ := Option.bind_eq_some_iff.mp hdeclared
        refine ⟨⟨insert entry.interruptionId entries.members,
          entries.memberOrder ++ [entry.interruptionId], middle, entries.terms ++ [seconds]⟩,
          ⟨seconds, hseconds, htaken, rfl, rfl, rfl⟩, own, hown, hrest, hmembers, ?_, ?_⟩
        · rw [horder, List.append_assoc]
          rfl
        · rw [hterms, List.append_assoc]
          rfl

/-- The progress after a row is that before it with what the row declares. -/
structure Declares (progress after : NetProgress) (rows : List RowDeclaration) : Prop where
  rowFacts : declareAll rowMerging (rows.map RowDeclaration.ofRow) progress.rowFacts =
    some after.rowFacts
  interruptions : declareAll interruptionMerging (rows.flatMap RowDeclaration.ofInterruptions)
    progress.interruptions = some after.interruptions
  sessions : declareAll sessionMerging (rows.map RowDeclaration.ofSession) progress.sessions =
    some after.sessions
  inventories : after.declaredInventories =
    progress.declaredInventories ++ rows.flatMap RowDeclaration.inventory
  output : after.output = progress.output ++ rows.map fun d => d.record ++ d.cells

/-- A row is taken exactly if what it says by itself is in order and its declarations are taken. -/
theorem declareRow_eq_ok :
    declareRow formats headers progress record = .ok after ↔
      ∃ d, ownDeclaration formats headers record = some d ∧ Declares progress after [d] := by
  obtain ⟨rowFacts, sessions, interruptions, inventories, output⟩ := after
  simp only [declareRow, bind_eq_ok, ite_error_eq_ok, foldlM_declareEntry, Except.ok.injEq,
    NetProgress.mk.injEq, ownDeclaration, Option.bind_eq_some_iff, Option.map_eq_some_iff,
    toOption_eq_some]
  constructor
  · rintro ⟨_, hcheck, hrow, gross, hgross, supplied, hsupplied, inventory, ⟨own, hown, hentries,
      hmembers, horder, hterms⟩, kept, hkept, cells, hcells, rfl, rfl, rfl, rfl, rfl⟩
    rw [List.nil_append] at hterms horder
    refine ⟨_, ⟨_, hcheck, gross, hgross, supplied, hsupplied, own, hown, cells, hterms ▸ hcells,
      rfl⟩, ?_⟩
    exact {
      rowFacts := Option.bind_eq_some_iff.mpr ⟨_, keepRow_eq_some.mp ⟨hrow, rfl⟩, rfl⟩
      interruptions := by
        rw [List.flatMap_singleton]
        exact hentries
      sessions := by
        refine Option.bind_eq_some_iff.mpr ⟨_, ?_, rfl⟩
        rw [hmembers, map_const_eq_ite] at hkept
        exact mergeSession_eq_ok.mp ⟨kept, hkept, rfl⟩
      inventories := by
        rw [List.flatMap_singleton, RowDeclaration.inventory, horder]
      output := rfl }
  · rintro ⟨d, ⟨_, hcheck, gross, hgross, supplied, hsupplied, own, hown, cells, hcells, rfl⟩,
      hrows, hinterruptions, hsessions, hinventories, houtput⟩
    obtain ⟨_, hrow, hend⟩ := Option.bind_eq_some_iff.mp hrows
    obtain rfl := Option.some.inj hend
    obtain ⟨hnew, hnext⟩ := keepRow_eq_some.mpr hrow
    obtain ⟨_, hsession, hend⟩ := Option.bind_eq_some_iff.mp hsessions
    obtain rfl := Option.some.inj hend
    obtain ⟨kept, hkept, hnext'⟩ := mergeSession_eq_ok.mpr hsession
    rw [List.flatMap_singleton] at hinterruptions hinventories
    refine ⟨_, hcheck, hnew, gross, hgross, supplied, hsupplied,
      ⟨own.foldl (fun ids e => insert e.1 ids) ∅, own.map Prod.fst, interruptions,
        own.map Prod.snd⟩, ⟨own, hown, hinterruptions, rfl, rfl, rfl⟩, kept, ?_, cells, hcells,
      hnext, hnext', rfl, hinventories.symm, houtput.symm⟩
    rw [map_const_eq_ite]
    exact hkept

end Rows

/-! ## The table -/

/-- The record that is written for a record that is read: its cells, and those that it computes. -/
def rowOutput (headers record : Record) : Record :=
  record ++ (ownDeclaration formats headers record).elim [] RowDeclaration.cells

section Tables

variable {formats : Formats} {headers record : Record} {progress after : NetProgress}
  {records : List Record}

theorem declares_nil : Declares progress after [] ↔ after = progress := by
  obtain ⟨rowFacts, sessions, interruptions, inventories, output⟩ := progress
  constructor
  · rintro ⟨hrows, hinterruptions, hsessions, hinventories, houtput⟩
    obtain ⟨rowFacts', sessions', interruptions', inventories', output'⟩ := after
    obtain rfl := Option.some.inj hrows
    obtain rfl := Option.some.inj hinterruptions
    obtain rfl := Option.some.inj hsessions
    obtain rfl : inventories' = inventories := hinventories.trans (List.append_nil _)
    obtain rfl : output' = output := houtput.trans (List.append_nil _)
    rfl
  · rintro rfl
    exact ⟨rfl, rfl, rfl, (List.append_nil _).symm, (List.append_nil _).symm⟩

theorem declares_cons {d : RowDeclaration} {rows : List RowDeclaration} :
    Declares progress after (d :: rows) ↔
      ∃ middle, Declares progress middle [d] ∧ Declares middle after rows := by
  constructor
  · rintro ⟨hrows, hinterruptions, hsessions, hinventories, houtput⟩
    rw [List.map_cons, ← List.singleton_append, declareAll_append] at hrows hsessions
    rw [List.flatMap_cons, declareAll_append] at hinterruptions
    obtain ⟨rowFacts, hfirst, hrows⟩ := Option.bind_eq_some_iff.mp hrows
    obtain ⟨sessions, hfirst', hsessions⟩ := Option.bind_eq_some_iff.mp hsessions
    obtain ⟨interruptions, hfirst'', hinterruptions⟩ := Option.bind_eq_some_iff.mp hinterruptions
    refine ⟨⟨rowFacts, sessions, interruptions, progress.declaredInventories ++ d.inventory,
      progress.output ++ [d.record ++ d.cells]⟩, ⟨hfirst, ?_, hfirst', ?_, rfl⟩,
      ⟨hrows, hinterruptions, hsessions, ?_, ?_⟩⟩
    · rw [List.flatMap_singleton]
      exact hfirst''
    · rw [List.flatMap_singleton]
    · rw [hinventories, List.flatMap_cons, List.append_assoc]
    · rw [houtput, List.map_cons, List.append_assoc]
      rfl
  · rintro ⟨middle, hfirst, hrest⟩
    refine ⟨?_, ?_, ?_, ?_, ?_⟩
    · rw [List.map_cons, ← List.singleton_append, declareAll_append]
      exact Option.bind_eq_some_iff.mpr ⟨_, hfirst.rowFacts, hrest.rowFacts⟩
    · have hinterruptions := hfirst.interruptions
      rw [List.flatMap_singleton] at hinterruptions
      rw [List.flatMap_cons, declareAll_append]
      exact Option.bind_eq_some_iff.mpr ⟨_, hinterruptions, hrest.interruptions⟩
    · rw [List.map_cons, ← List.singleton_append, declareAll_append]
      exact Option.bind_eq_some_iff.mpr ⟨_, hfirst.sessions, hrest.sessions⟩
    · rw [hrest.inventories, hfirst.inventories, List.flatMap_singleton, List.flatMap_cons,
        List.append_assoc]
    · rw [hrest.output, hfirst.output, List.append_assoc]
      rfl

/-- The loop takes all records exactly if each says what it may by itself, and all that they
declare is taken. -/
theorem foldlM_declareRow :
    records.foldlM (declareRow formats headers) progress = .ok after ↔
      (∀ record ∈ records, (ownDeclaration formats headers record).isSome = true) ∧
        Declares progress after (records.filterMap (ownDeclaration formats headers)) := by
  induction records generalizing progress with
  | nil =>
      rw [List.filterMap_nil, declares_nil, List.foldlM_nil]
      show Except.ok progress = .ok after ↔ _
      rw [Except.ok.injEq, eq_comm]
      exact (and_iff_right (List.forall_mem_nil _)).symm
  | cons record rest ih =>
      rw [List.foldlM_cons, bind_eq_ok, List.forall_mem_cons, List.filterMap_cons]
      simp only [declareRow_eq_ok, ih]
      cases hown : ownDeclaration formats headers record with
      | none => exact iff_of_false (fun ⟨_, ⟨_, h, _⟩, _⟩ => nomatch h) fun h => nomatch h.1.1
      | some d =>
          rw [declares_cons]
          constructor
          · rintro ⟨middle, ⟨_, hsame, hfirst⟩, hall, hrest⟩
            obtain rfl := Option.some.inj hsame
            exact ⟨⟨rfl, hall⟩, middle, hfirst, hrest⟩
          · rintro ⟨⟨-, hall⟩, middle, hfirst, hrest⟩
            exact ⟨middle, ⟨d, rfl, hfirst⟩, hall, hrest⟩

theorem record_of_ownDeclaration {d : RowDeclaration}
    (h : ownDeclaration formats headers record = some d) : d.record = record := by
  obtain ⟨_, -, h⟩ := Option.bind_eq_some_iff.mp h
  obtain ⟨gross, -, h⟩ := Option.bind_eq_some_iff.mp h
  obtain ⟨supplied, -, h⟩ := Option.bind_eq_some_iff.mp h
  obtain ⟨own, -, h⟩ := Option.bind_eq_some_iff.mp h
  obtain ⟨cells, -, rfl⟩ := Option.map_eq_some_iff.mp h
  rfl

/-- What the loop writes for a record depends on that record alone. -/
theorem map_rowOutput
    (h : ∀ record ∈ records, (ownDeclaration formats headers record).isSome = true) :
    (records.filterMap (ownDeclaration formats headers)).map (fun d => d.record ++ d.cells) =
      records.map (rowOutput formats headers) := by
  induction records with
  | nil => rfl
  | cons record rest ih =>
      obtain ⟨hfirst, hrest⟩ := List.forall_mem_cons.mp h
      obtain ⟨d, hd⟩ := Option.isSome_iff_exists.mp hfirst
      rw [List.filterMap_cons_some hd, List.map_cons, List.map_cons, ih hrest, rowOutput, hd,
        record_of_ownDeclaration hd]
      rfl

/-! ## Sums of known seconds -/

/-- The same scalar, where a zero has no sign. -/
def RCompatibleScalar.plain : RCompatibleScalar → RCompatibleScalar
  | .finite value => .finite ⟨value.datum, false⟩
  | other => other

theorem RCompatibleScalar.plain_fromF64 (value : Seconds) :
    (fromF64 value).plain = (fromF64 ⟨value.datum, false⟩).plain := by
  obtain ⟨datum, negativeZero⟩ := value
  cases datum with
  | finite x => rfl
  | infinity negative => cases negative <;> rfl
  | nan => rfl

/-- Scalars that differ in the sign of a zero at most. -/
theorem RCompatibleScalar.eq_or_of_plain {a b : RCompatibleScalar} (h : a.plain = b.plain) :
    a = b ∨ ∃ x y : Seconds, x.datum = y.datum ∧ a = finite x ∧ b = finite y := by
  cases a <;> cases b <;> simp_all [plain]

theorem RCompatibleScalar.plain_fromF64_add {x x' y y' : Seconds} (hx : x.datum = x'.datum)
    (hy : y.datum = y'.datum) : (fromF64 (x.add y)).plain = (fromF64 (x'.add y')).plain := by
  rw [plain_fromF64, plain_fromF64 (x'.add y'), Seconds.add, Seconds.add, hx, hy]

/-- No sign of a zero is seen in the datum of a sum. -/
theorem RCompatibleScalar.plain_add {a a' b b' : RCompatibleScalar} (ha : a.plain = a'.plain)
    (hb : b.plain = b'.plain) : (a.add b).plain = (a'.add b').plain := by
  obtain rfl | ⟨x, x', hx, rfl, rfl⟩ := eq_or_of_plain ha
  · obtain rfl | ⟨y, y', hy, rfl, rfl⟩ := eq_or_of_plain hb
    · rfl
    · cases a with
      | finite x => exact plain_fromF64_add rfl hy
      | _ => rfl
  · obtain rfl | ⟨y, y', hy, rfl, rfl⟩ := eq_or_of_plain hb
    · cases b with
      | finite y => exact plain_fromF64_add hx rfl
      | _ => rfl
    · exact plain_fromF64_add hx hy

theorem plain_foldl {values values' : List RCompatibleScalar} {a a' : RCompatibleScalar}
    (ha : a.plain = a'.plain)
    (h : values.map RCompatibleScalar.plain = values'.map RCompatibleScalar.plain) :
    (values.foldl .add a).plain = (values'.foldl .add a').plain := by
  induction values generalizing a a' values' with
  | nil =>
      obtain rfl := List.map_eq_nil_iff.mp h.symm
      exact ha
  | cons value rest ih =>
      cases values' with
      | nil => cases h
      | cons value' rest' =>
          obtain ⟨hvalue, hrest⟩ := List.cons.inj h
          show (rest.foldl .add (a.add value)).plain = (rest'.foldl .add (a'.add value')).plain
          exact ih (RCompatibleScalar.plain_add ha hvalue) hrest

/-- A total has the datum that the data of its terms give. -/
theorem total_congr {terms terms' : List (Option Seconds)}
    (h : terms.map (Option.map Seconds.datum) = terms'.map (Option.map Seconds.datum)) :
    (total terms).map (Option.map Seconds.datum) =
      (total terms').map (Option.map Seconds.datum) := by
  have hplain : (groupedScalarSum (terms.map .ofOption)).plain =
      (groupedScalarSum (terms'.map .ofOption)).plain := by
    refine plain_foldl rfl ?_
    have hterm : ∀ term : Option Seconds, (RCompatibleScalar.ofOption term).plain =
        (term.map Seconds.datum).elim .missing fun datum => .finite ⟨datum, false⟩ := by
      intro term
      cases term <;> rfl
    have hterms : ∀ l : List (Option Seconds), 
        (l.map RCompatibleScalar.ofOption).map RCompatibleScalar.plain =
        (l.map (Option.map Seconds.datum)).map fun term =>
          term.elim .missing fun datum => .finite ⟨datum, false⟩ := by
      intro l
      rw [List.map_map, List.map_map]
      exact List.map_congr_left fun term _ => hterm term
    rw [hterms, hterms, h]
  have hempty : terms.isEmpty = terms'.isEmpty := by
    rw [← List.isEmpty_map, h, List.isEmpty_map]
  unfold total
  rw [hempty]
  split
  · rfl
  · generalize groupedScalarSum (terms.map .ofOption) = sum at hplain
    generalize groupedScalarSum (terms'.map .ofOption) = sum' at hplain
    obtain rfl | ⟨x, y, hdatum, rfl, rfl⟩ := RCompatibleScalar.eq_or_of_plain hplain
    · rfl
    · simp only [hdatum]
      split
      · exact congrArg (fun datum => Except.ok (some datum)) hdatum
      · rfl

/-- The sum of known terms is known, so that `expect` does not panic. -/
theorem total_known (terms : List Seconds) : total (terms.map some) ≠ .ok none := by
  have hadd : ∀ (a : RCompatibleScalar) (value : Seconds), a ≠ .missing →
      a.add (.finite value) ≠ .missing := by
    intro a value ha
    cases a with
    | missing => exact absurd rfl ha
    | finite x =>
        show RCompatibleScalar.fromF64 (x.add value) ≠ .missing
        unfold RCompatibleScalar.fromF64
        split <;> simp
    | _ => simp [RCompatibleScalar.add]
  have hfold : ∀ (l : List Seconds) (a : RCompatibleScalar), a ≠ .missing →
      ((l.map some).map RCompatibleScalar.ofOption).foldl .add a ≠ .missing := by
    intro l
    induction l with
    | nil => exact fun a ha => ha
    | cons value rest ih => exact fun a ha => ih _ (hadd a value ha)
  have hsum : groupedScalarSum ((terms.map some).map .ofOption) ≠ .missing :=
    hfold terms _ (by simp)
  unfold total
  split
  · simp
  · split
    · rename_i hmissing
      exact absurd hmissing hsum
    · split <;> simp
    · simp

theorem knownTotal_congr {terms terms' : List Seconds}
    (h : terms.map Seconds.datum = terms'.map Seconds.datum) :
    (knownTotal terms).map Seconds.datum = (knownTotal terms').map Seconds.datum := by
  have hknown : (terms.map some).map (Option.map Seconds.datum) =
      (terms'.map some).map (Option.map Seconds.datum) := by
    rw [List.map_map, List.map_map]
    exact (List.map_map.symm.trans (congrArg (List.map some) h)).trans List.map_map
  have htotal := total_congr hknown
  unfold knownTotal
  cases hsum : total (terms.map some) with
  | error failure =>
      cases hsum' : total (terms'.map some) with
      | error failure' =>
          rw [hsum, hsum'] at htotal
          exact congrArg Except.error (Except.error.inj htotal)
      | ok sum' =>
          rw [hsum, hsum'] at htotal
          cases htotal
  | ok sum =>
      cases hsum' : total (terms'.map some) with
      | error failure' =>
          rw [hsum, hsum'] at htotal
          cases htotal
      | ok sum' =>
          rw [hsum, hsum'] at htotal
          have hdatum := Except.ok.inj htotal
          cases sum with
          | none => exact absurd hsum (total_known terms)
          | some x =>
              cases sum' with
              | none => exact absurd hsum' (total_known terms')
              | some y => exact congrArg Except.ok (Option.some.inj hdatum)

/-! ## The order of the rows -/

/-- The last check of an inventory looks at the data of what is known only. -/
theorem reconcile_congr {progress' : NetProgress} {declared : (String × String) × List String}
    (hgross : ∀ key, ((progress.sessions key).bind SessionFacts.gross).map Seconds.datum =
      ((progress'.sessions key).bind SessionFacts.gross).map Seconds.datum)
    (hseconds : ∀ key,
      ((progress.interruptions key).bind InterruptionFacts.seconds).map Seconds.datum =
        ((progress'.interruptions key).bind InterruptionFacts.seconds).map Seconds.datum)
    (h : reconcile progress declared = .ok ()) : reconcile progress' declared = .ok () := by
  have hkey := hgross declared.1
  unfold reconcile at h ⊢
  cases hkept' : (progress'.sessions declared.1).bind SessionFacts.gross with
  | none => rfl
  | some gross' =>
      cases hkept : (progress.sessions declared.1).bind SessionFacts.gross with
      | none =>
          rw [hkept, hkept'] at hkey
          cases hkey
      | some gross =>
          rw [hkept, hkept'] at hkey
          have hdatum := Option.some.inj hkey
          rw [hkept] at h
          obtain ⟨known, hknown, hfits⟩ := bind_eq_ok.mp h
          have hterms : ∀ p : NetProgress, (declared.2.filterMap fun id =>
              (p.interruptions (declared.1.1, id)).bind InterruptionFacts.seconds).map
                Seconds.datum = declared.2.filterMap fun id =>
              ((p.interruptions (declared.1.1, id)).bind InterruptionFacts.seconds).map
                Seconds.datum := fun p => List.map_filterMap
          have hsum := knownTotal_congr (((hterms progress).trans (List.filterMap_congr
            fun id _ => hseconds (declared.1.1, id))).trans (hterms progress').symm)
          rw [hknown] at hsum
          obtain ⟨known', hknown', hsame⟩ := map_eq_ok.mp hsum.symm
          refine bind_eq_ok.mpr ⟨known', hknown', ?_⟩
          have hgt : known'.gt gross' = known.gt gross := by
            rw [Seconds.gt, Seconds.gt, hsame, hdatum]
          rw [hgt]
          exact hfits

/-- The seconds that are known of agreeing facts are one datum. -/
theorem datum_eq_of_agrees {a b : InterruptionFacts} {x y : Seconds}
    (h : interruptionMerging.agrees a b = true) (hx : a.seconds = some x)
    (hy : b.seconds = some y) : x.datum = y.datum := by
  have hknown : contradict a.seconds b.seconds = false :=
    (Bool.not_eq_true' _).mp ((Bool.and_eq_true _ _).mp h).2
  rw [hx, hy] at hknown
  exact datum_eq_of_contradict hknown

theorem gross_datum_eq_of_agrees {a b : SessionFacts} {x y : Seconds}
    (h : sessionMerging.agrees a b = true) (hx : a.gross = some x) (hy : b.gross = some y) :
    x.datum = y.datum := by
  have hknown : contradict a.gross b.gross = false :=
    (Bool.not_eq_true' _).mp ((Bool.and_eq_true _ _).mp ((Bool.and_eq_true _ _).mp h).2).1
  rw [hx, hy] at hknown
  exact datum_eq_of_contradict hknown

theorem netDurations_eq_ok {rows : List Record} :
    netDurations formats headers records = .ok rows ↔
      ∃ after, records.foldlM (declareRow formats headers) .new = .ok after ∧
        (∀ declared ∈ after.declaredInventories, reconcile after declared = .ok ()) ∧
        (headers ++ netDurationOutputs) :: after.output = rows := by
  simp only [netDurations, bind_eq_ok, Except.ok.injEq]
  exact ⟨fun ⟨after, hrun, _, hall, heq⟩ => ⟨after, hrun, forM_eq_ok.mp hall, heq⟩,
    fun ⟨after, hrun, hall, heq⟩ => ⟨after, hrun, (), forM_eq_ok.mpr hall, heq⟩⟩

/-- A table that is accepted is accepted in every order of its rows. -/
theorem netDurations_perm {records' : List Record} (hperm : records.Perm records')
    (h : ∃ rows, netDurations formats headers records = .ok rows) :
    ∃ rows, netDurations formats headers records' = .ok rows := by
  obtain ⟨rows, hrows⟩ := h
  obtain ⟨after, hrun, hreconciled, -⟩ := netDurations_eq_ok.mp hrows
  obtain ⟨hall, hdeclares⟩ := foldlM_declareRow.mp hrun
  have hdeclared := hperm.filterMap (ownDeclaration formats headers)
  have htaken : ∀ {κ α : Type} [DecidableEq κ] (merging : Merging α) {l l' : List (κ × α)}
      {kept : Store κ α}, l.Perm l' → declareAll merging l (fun _ => none) = some kept →
      ∃ kept', declareAll merging l' (fun _ => none) = some kept' := by
    intro κ α _ merging l l' kept hl hkept
    rw [← Option.isSome_iff_exists, ← declareAll_isSome_of_perm hl, hkept]
    rfl
  obtain ⟨rowFacts, hrowFacts⟩ :=
    htaken rowMerging (hdeclared.map RowDeclaration.ofRow) hdeclares.rowFacts
  have hentries := hdeclared.flatMap_right RowDeclaration.ofInterruptions
  obtain ⟨interruptions, hinterruptions⟩ :=
    htaken interruptionMerging hentries hdeclares.interruptions
  have howners := hdeclared.map RowDeclaration.ofSession
  obtain ⟨sessions, hsessions⟩ := htaken sessionMerging howners hdeclares.sessions
  have hgross := known_of_perm (fun _ _ => rfl)
    (fun _ _ _ _ => gross_datum_eq_of_agrees) howners hdeclares.sessions hsessions
  have hseconds := known_of_perm (fun _ _ => rfl)
    (fun _ _ _ _ => datum_eq_of_agrees) hentries hdeclares.interruptions hinterruptions
  refine ⟨_, netDurations_eq_ok.mpr ⟨⟨rowFacts, sessions, interruptions, _, _⟩,
    foldlM_declareRow.mpr ⟨fun record hmem => hall record (hperm.mem_iff.mpr hmem),
      hrowFacts, hinterruptions, hsessions, rfl, rfl⟩, fun declared hmem => ?_, rfl⟩⟩
  have hinventory : declared ∈ after.declaredInventories := by
    rw [hdeclares.inventories]
    exact (hdeclared.flatMap_right RowDeclaration.inventory).mem_iff.mpr hmem
  exact reconcile_congr hgross hseconds (hreconciled declared hinventory)

/-- What is written for an accepted table is the header and the output of each row by itself. -/
theorem eq_of_netDurations {rows : List Record}
    (h : netDurations formats headers records = .ok rows) :
    rows = (headers ++ netDurationOutputs) :: records.map (rowOutput formats headers) := by
  obtain ⟨after, hrun, -, rfl⟩ := netDurations_eq_ok.mp h
  obtain ⟨hall, hdeclares⟩ := foldlM_declareRow.mp hrun
  rw [hdeclares.output, ← map_rowOutput hall]
  rfl

/-- Whether a table is accepted does not depend on the order of its rows, and what is written for a
row does not depend on any other row. -/
theorem csv_permuted (formats : Formats) {raw raw' : List UInt8} {headers : Record}
    {records records' : List Record} (hheaders : formats.headers raw = .ok headers)
    (hheaders' : formats.headers raw' = .ok headers) (hrecords : formats.records raw = .ok records)
    (hrecords' : formats.records raw' = .ok records') (hperm : records.Perm records') :
    ((∃ output, csv formats raw = .ok output) ↔ ∃ output, csv formats raw' = .ok output) ∧
      ∀ output output', csv formats raw = .ok output → csv formats raw' = .ok output' →
        output = (formats.write ((headers ++ netDurationOutputs) ::
          records.map (rowOutput formats headers)), records.length) ∧
        output' = (formats.write ((headers ++ netDurationOutputs) ::
          records'.map (rowOutput formats headers)), records'.length) := by
  have hcsv : ∀ {bytes : List UInt8} {l : List Record} {output : List UInt8 × Nat},
      formats.headers bytes = .ok headers → formats.records bytes = .ok l →
      (csv formats bytes = .ok output ↔ checkHeaders headers = .ok () ∧
        ∃ rows, netDurations formats headers l = .ok rows ∧
          (formats.write rows, l.length) = output) := by
    intro bytes l output hheader hl
    simp only [csv, bind_eq_ok, hheader, hl, Except.ok.injEq, exists_eq_left']
    exact ⟨fun ⟨_, hrest⟩ => hrest, fun hrest => ⟨(), hrest⟩⟩
  have haccepts : ∀ {bytes : List UInt8} {l : List Record},
      formats.headers bytes = .ok headers → formats.records bytes = .ok l →
      ((∃ output, csv formats bytes = .ok output) ↔ checkHeaders headers = .ok () ∧
        ∃ rows, netDurations formats headers l = .ok rows) := by
    intro bytes l hheader hl
    simp only [hcsv hheader hl]
    exact ⟨fun ⟨_, hcheck, rows, hrows, _⟩ => ⟨hcheck, rows, hrows⟩,
      fun ⟨hcheck, rows, hrows⟩ => ⟨_, hcheck, rows, hrows, rfl⟩⟩
  refine ⟨?_, fun output output' houtput houtput' => ⟨?_, ?_⟩⟩
  · rw [haccepts hheaders hrecords, haccepts hheaders' hrecords']
    exact and_congr_right fun _ => ⟨netDurations_perm hperm, netDurations_perm hperm.symm⟩
  · obtain ⟨-, rows, hrows, rfl⟩ := (hcsv hheaders hrecords).mp houtput
    rw [eq_of_netDurations hrows]
  · obtain ⟨-, rows, hrows, rfl⟩ := (hcsv hheaders' hrecords').mp houtput'
    rw [eq_of_netDurations hrows]

/-- A row of a session with a gross duration and an empty inventory, or without both. -/
def sessionRow (rowId gross inventory : String) : Record :=
  [rowId, "p", "d", "t", "Android", "session", "app", gross, "s",
    "caller-qualified-complete-gross-learning-session",
    "caller-qualified-complete-disjoint-suspending-durations", inventory]

/-- A row of a session that declares neither, and one that declares both. -/
def bareRow : Record := sessionRow "1" "" ""

def fullRow : Record := sessionRow "2" "90" "[]"

/-- The bytes of records whose cells need no quotes. -/
def plainBytes (rows : List Record) : List UInt8 :=
  rows.flatMap fun row => (",".intercalate row ++ "\n").toList.map fun c => UInt8.ofNat c.toNat

/-- Readers of the tables of these two rows. -/
def plainFormats : Formats where
  headers _ := .ok netDurationFields
  records raw :=
    .ok (if raw = plainBytes [netDurationFields, bareRow, fullRow] then [bareRow, fullRow]
      else [fullRow, bareRow])
  write := plainBytes
  entries _ := .ok []
  jsonString _ := .ok ""
  parse _ := some ⟨.finite 90, false⟩
  text value := if value = .zero then "0" else "90"

/-- One session in two rows, of which only the second has a gross duration and an inventory. -/
theorem csv_permuted_two :
    (∃ output, csv plainFormats (plainBytes [netDurationFields, bareRow, fullRow]) = .ok output) ↔
      ∃ output, csv plainFormats (plainBytes [netDurationFields, fullRow, bareRow]) =
        .ok output := by
  have hne : plainBytes [netDurationFields, fullRow, bareRow] ≠
      plainBytes [netDurationFields, bareRow, fullRow] := by
    intro heq
    have hrows : plainBytes [fullRow, bareRow] = plainBytes [bareRow, fullRow] :=
      List.append_cancel_left heq
    exact absurd (congrArg List.head? hrows) (by decide +kernel)
  exact (@csv_permuted plainFormats _ _ netDurationFields _ _ rfl rfl
    (congrArg Except.ok (if_pos rfl)) (congrArg Except.ok (if_neg hne))
    (List.Perm.swap fullRow bareRow [])).1

end Tables

end Chronicle.Adapters
