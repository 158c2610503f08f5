import Chronicle.Library.Bytes
import Chronicle.Screens.Types
import Mathlib.Algebra.Group.Basic
import Mathlib.Data.List.Dedup
import Mathlib.Data.List.Sort

/-!
# Screen events and screen intervals

The rows that the screen strategies read, and the intervals and issues they construct. An interval
is named by a fingerprint of its fields; the hash is a parameter.
-/

namespace Chronicle.Screens

open Chronicle.Library.Bytes

/-- `AndroidUsageSignal` -/
inductive AndroidUsageSignal where
  | activityResumed
  | screenInteractive
  | screenNonInteractive
  | keyguardShown
  | keyguardHidden
  | deviceShutdown
  | deviceStartup
  | combinedScreenInteractiveKeyguardShown
  | combinedScreenNonInteractiveKeyguardHidden
  | other
deriving DecidableEq, Repr

/-- What the screen strategies read of a `RawB05Event`. -/
structure RawB05Event where
  participantId : String
  timestampNs : Option Int
  sourceDataRow : Nat
  rawInteractionType : String
  signal : AndroidUsageSignal
deriving DecidableEq, Repr

/-- The timestamp that a state machine expects a row to have. -/
def RawB05Event.ns (row : RawB05Event) : Int := row.timestampNs.getD 0

/-- The rows have different places in the source. -/
def DistinctRows (rows : List RawB05Event) : Prop := (rows.map (·.sourceDataRow)).Nodup

instance (rows : List RawB05Event) : Decidable (DistinctRows rows) :=
  inferInstanceAs (Decidable (rows.map (·.sourceDataRow)).Nodup)

theorem DistinctRows.perm {rows rows' : List RawB05Event} (h : DistinctRows rows)
    (hperm : rows.Perm rows') : DistinctRows rows' :=
  (hperm.map _).nodup_iff.mp h

/-- `ScreenSessionConstructionStrategyId::canonical_id` -/
def Strategy.canonicalId : Strategy → String
  | chronicleScreenInteractiveV1 => "chronicle_screen_interactive_v1"
  | parryToth2025SessionGlanceV1 => "parry_toth_2025_session_glance_v1"
  | zhu2018UnlockLockV1 => "zhu_2018_unlock_lock_v1"
  | unlockToLockV1 => "unlock_to_lock_v1"
  | unlockToOffOrLockV1 => "unlock_to_off_or_lock_v1"

/-- `ScreenIntervalKind` -/
inductive ScreenIntervalKind where
  | session
  | glance
deriving DecidableEq, Repr

/-- `ScreenIntervalKind::canonical_id` -/
def ScreenIntervalKind.canonicalId : ScreenIntervalKind → String
  | session => "session"
  | glance => "glance"

/-- `ScreenIntervalCloseReason` -/
inductive ScreenIntervalCloseReason where
  | screenNonInteractive
  | keyguardShown
  | deviceScreenOff
  | deviceShutdown
  | rightCensoredObservationWindow
deriving DecidableEq, Repr

/-- `ScreenIntervalCloseReason::canonical_id` -/
def ScreenIntervalCloseReason.canonicalId : ScreenIntervalCloseReason → String
  | screenNonInteractive => "screen_non_interactive"
  | keyguardShown => "keyguard_shown"
  | deviceScreenOff => "device_screen_off"
  | deviceShutdown => "device_shutdown"
  | rightCensoredObservationWindow => "right_censored_observation_window"

/-- `ScreenIntervalEvidence` -/
structure ScreenIntervalEvidence where
  screenIntervalId : String
  participantId : String
  strategyId : Strategy
  kind : ScreenIntervalKind
  startNs : Int
  stopNs : Option Int
  startBoundarySourceRow : Nat
  stopBoundarySourceRow : Option Nat
  startSourceRows : List Nat
  stopSourceRows : List Nat
  closeReason : ScreenIntervalCloseReason
  leftCensored : Bool
  rightCensored : Bool
deriving DecidableEq, Repr

/-- `ScreenConstructionIssueCode` -/
inductive ScreenConstructionIssueCode where
  | chronicleOrphanStop
  | unmatchedGlanceStopNoPreviousStart
  | unmatchedGlanceStopPreviousNotStart
  | unmatchedGlanceStartNextNotStop
  | unmatchedGlanceStartNoNextStop
  | unmatchedSessionStopNoPreviousStart
  | unmatchedSessionStopPreviousNotStart
  | unmatchedSessionStartNextNotStop
  | unmatchedSessionStartNoNextStop
  | zhuScreenInteractiveNextNotKeyguardHidden
  | zhuScreenInteractiveNoNextRow
  | zhuOrphanStop
deriving DecidableEq, Repr

/-- `ScreenConstructionIssue` -/
structure ScreenConstructionIssue where
  participantId : String
  sourceDataRow : Nat
  code : ScreenConstructionIssueCode
deriving DecidableEq, Repr

/-- `B05_FOUNDATIONAL_SEMANTICS_PROTOCOL_VERSION` -/
def b05FoundationalSemanticsProtocolVersion : String := "chronicle-b05-foundational-semantics/v1"

/-- `digest_field` -/
def digestField (value : String) : List UInt8 := leBytes 8 (utf8 value).length ++ utf8 value

/-- `sort_unstable` and `dedup` of row numbers. -/
def sortDedup (rows : List Nat) : List Nat := (rows.insertionSort (· ≤ ·)).dedup

@[simp]
theorem mem_sortDedup {rows : List Nat} {row : Nat} : row ∈ sortDedup rows ↔ row ∈ rows := by
  rw [sortDedup, List.mem_dedup, List.mem_insertionSort]

section Construction

variable (sha256 : List UInt8 → List UInt8)

/-- `sha256_wire` -/
def sha256Wire (bytes : List UInt8) : String := "sha256:" ++ hexEncode (sha256 bytes)

/-- `make_screen_interval_from_parts` -/
def makeScreenIntervalFromParts (participantId : String) (strategyId : Strategy)
    (kind : ScreenIntervalKind) (startNs : Int) (stopNs : Option Int)
    (startBoundarySourceRow : Nat) (stopBoundarySourceRow : Option Nat)
    (startSourceRows stopSourceRows : List Nat) (closeReason : ScreenIntervalCloseReason) :
    ScreenIntervalEvidence :=
  let startSourceRows := sortDedup startSourceRows
  let stopSourceRows := sortDedup stopSourceRows
  let rightCensored := stopNs.isNone
  let identity := digestField b05FoundationalSemanticsProtocolVersion ++
    digestField participantId ++ digestField strategyId.canonicalId ++
    digestField kind.canonicalId ++ digestField (toString startNs) ++
    digestField (toString startBoundarySourceRow) ++
    digestField ((stopNs.map toString).getD "") ++
    digestField ((stopBoundarySourceRow.map toString).getD "") ++
    startSourceRows.flatMap (fun row => digestField (toString row)) ++ digestField "|" ++
    stopSourceRows.flatMap (fun row => digestField (toString row)) ++
    digestField closeReason.canonicalId ++ digestField "0" ++
    digestField (if rightCensored then "1" else "0")
  { screenIntervalId := "urn:chronicle:screen-interval:" ++ sha256Wire sha256 identity
    participantId
    strategyId
    kind
    startNs
    stopNs
    startBoundarySourceRow
    stopBoundarySourceRow
    startSourceRows
    stopSourceRows
    closeReason
    leftCensored := false
    rightCensored }

/-- `make_screen_interval`. A start without a timestamp would be a panic; the rows that reach a
state machine have one. -/
def makeScreenInterval (participantId : String) (strategyId : Strategy)
    (kind : ScreenIntervalKind) (start : RawB05Event) (stop : Option RawB05Event)
    (startSourceRows stopSourceRows : List Nat) (closeReason : ScreenIntervalCloseReason) :
    ScreenIntervalEvidence :=
  makeScreenIntervalFromParts sha256 participantId strategyId kind start.ns
    (stop.bind (·.timestampNs)) start.sourceDataRow (stop.map (·.sourceDataRow))
    startSourceRows stopSourceRows closeReason

variable {sha256} {participantId : String} {strategyId : Strategy} {kind : ScreenIntervalKind}
variable {start : RawB05Event} {stop : Option RawB05Event} {startSourceRows stopSourceRows : List Nat}
variable {closeReason : ScreenIntervalCloseReason}

end Construction

/-- `issue` -/
def issue (participantId : String) (sourceDataRow : Nat) (code : ScreenConstructionIssueCode) :
    ScreenConstructionIssue :=
  { participantId, sourceDataRow, code }

/-! ## Signatures -/

/-- `ScreenSemanticSignature` -/
@[ext]
structure ScreenSemanticSignature where
  intervals : List ScreenIntervalEvidence
  issues : List ScreenConstructionIssue
deriving DecidableEq, Repr

namespace ScreenSemanticSignature

/-- One more interval. -/
def ofInterval (interval : ScreenIntervalEvidence) : ScreenSemanticSignature := ⟨[interval], []⟩

/-- One more issue. -/
def ofIssue (issue : ScreenConstructionIssue) : ScreenSemanticSignature := ⟨[], [issue]⟩

instance : Add ScreenSemanticSignature :=
  ⟨fun first second => ⟨first.intervals ++ second.intervals, first.issues ++ second.issues⟩⟩

instance : Zero ScreenSemanticSignature := ⟨⟨[], []⟩⟩

instance : AddMonoid ScreenSemanticSignature where
  nsmul := nsmulRec
  add_assoc _ _ _ := ScreenSemanticSignature.ext (List.append_assoc _ _ _) (List.append_assoc _ _ _)
  zero_add _ := rfl
  add_zero _ := ScreenSemanticSignature.ext (List.append_nil _) (List.append_nil _)

@[simp]
theorem intervals_add (first second : ScreenSemanticSignature) :
    (first + second).intervals = first.intervals ++ second.intervals := rfl

@[simp]
theorem issues_add (first second : ScreenSemanticSignature) :
    (first + second).issues = first.issues ++ second.issues := rfl

@[simp]
theorem intervals_zero : (0 : ScreenSemanticSignature).intervals = [] := rfl

@[simp]
theorem issues_zero : (0 : ScreenSemanticSignature).issues = [] := rfl

@[simp]
theorem intervals_ofInterval (interval : ScreenIntervalEvidence) :
    (ofInterval interval).intervals = [interval] := rfl

@[simp]
theorem issues_ofInterval (interval : ScreenIntervalEvidence) :
    (ofInterval interval).issues = [] := rfl

@[simp]
theorem intervals_ofIssue (issue : ScreenConstructionIssue) : (ofIssue issue).intervals = [] := rfl

@[simp]
theorem issues_ofIssue (issue : ScreenConstructionIssue) : (ofIssue issue).issues = [issue] := rfl

/-- The rows that the intervals name. -/
def intervalRows (signature : ScreenSemanticSignature) : List Nat :=
  signature.intervals.flatMap fun interval => interval.startSourceRows ++ interval.stopSourceRows

/-- The rows that the issues name. -/
def issueRows (signature : ScreenSemanticSignature) : List Nat :=
  signature.issues.map (·.sourceDataRow)

@[simp]
theorem intervalRows_add (first second : ScreenSemanticSignature) :
    (first + second).intervalRows = first.intervalRows ++ second.intervalRows :=
  List.flatMap_append

@[simp]
theorem issueRows_add (first second : ScreenSemanticSignature) :
    (first + second).issueRows = first.issueRows ++ second.issueRows := List.map_append

@[simp]
theorem intervalRows_zero : (0 : ScreenSemanticSignature).intervalRows = [] := rfl

@[simp]
theorem issueRows_zero : (0 : ScreenSemanticSignature).issueRows = [] := rfl

@[simp]
theorem intervalRows_ofInterval (interval : ScreenIntervalEvidence) :
    (ofInterval interval).intervalRows = interval.startSourceRows ++ interval.stopSourceRows :=
  List.append_nil _

@[simp]
theorem issueRows_ofInterval (interval : ScreenIntervalEvidence) :
    (ofInterval interval).issueRows = [] := rfl

@[simp]
theorem intervalRows_ofIssue (issue : ScreenConstructionIssue) :
    (ofIssue issue).intervalRows = [] := rfl

@[simp]
theorem issueRows_ofIssue (issue : ScreenConstructionIssue) :
    (ofIssue issue).issueRows = [issue.sourceDataRow] := rfl

instance : IsLeftCancelAdd ScreenSemanticSignature where
  add_left_cancel _ _ _ h := by
    rw [ScreenSemanticSignature.ext_iff] at h
    exact ScreenSemanticSignature.ext (List.append_cancel_left h.1) (List.append_cancel_left h.2)

end ScreenSemanticSignature

end Chronicle.Screens
