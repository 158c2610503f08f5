import Chronicle.Library.Scan
import Chronicle.Screens.Events

/-!
# Screen partitions

The state machines that cut the rows of one participant into screen intervals. Each reads the rows
in their order and reports the rows it cannot place.
-/

namespace Chronicle.Screens

open Chronicle.Library

section Partitions

variable (sha256 : List UInt8 → List UInt8) (participantId : String)

/-! ## The native rule -/

/-- The loop of `construct_chronicle_partition`. -/
def chronicleScan :
    Scan (Option (RawB05Event × List Nat)) RawB05Event ScreenSemanticSignature where
  step current row :=
    let isStart := row.signal = .screenInteractive ∨
      row.signal = .combinedScreenInteractiveKeyguardShown
    let isStop := row.signal = .screenNonInteractive ∨
      row.signal = .combinedScreenNonInteractiveKeyguardHidden ∨
      row.rawInteractionType = "Device Screen Off"
    if isStart then
      match current with
      | some (start, rows) => (some (start, rows ++ [row.sourceDataRow]), 0)
      | none => (some (row, [row.sourceDataRow]), 0)
    else if isStop then
      match current with
      | some (start, rows) =>
          (none, .ofInterval (makeScreenInterval sha256 participantId
            .chronicleScreenInteractiveV1 .session start (some row) rows [row.sourceDataRow]
            (if row.rawInteractionType = "Device Screen Off" then .deviceScreenOff
              else .screenNonInteractive)))
      | none => (none, .ofIssue (issue participantId row.sourceDataRow .chronicleOrphanStop))
    else (current, 0)
  finish
    | some (start, rows) =>
        .ofInterval (makeScreenInterval sha256 participantId .chronicleScreenInteractiveV1
          .session start none rows [] .rightCensoredObservationWindow)
    | none => 0

/-- `construct_chronicle_partition` -/
def constructChroniclePartition (rows : List RawB05Event) : ScreenSemanticSignature :=
  (chronicleScan sha256 participantId).run none (rows.filter (·.timestampNs.isSome))

/-! ## Unlocking and locking -/

/-- The row ends an interval of the direct unlock strategies. -/
def directCloses (strategy : Strategy) (signal : AndroidUsageSignal) : Bool :=
  signal = .keyguardShown ∨
    (strategy = .unlockToOffOrLockV1 ∧ signal = .screenNonInteractive)

/-- The loop of `construct_direct_unlock_partition`. -/
def directScan (strategy : Strategy) :
    Scan (Option RawB05Event) RawB05Event ScreenSemanticSignature where
  step current row :=
    if row.signal = .keyguardHidden then
      match current with
      | none => (some row, 0)
      | some start => (some start, 0)
    else if directCloses strategy row.signal then
      match current with
      | some start =>
          (none, .ofInterval (makeScreenInterval sha256 participantId strategy .session start
            (some row) [start.sourceDataRow] [row.sourceDataRow]
            (if row.signal = .keyguardShown then .keyguardShown else .screenNonInteractive)))
      | none => (none, 0)
    else (current, 0)
  finish
    | some start =>
        .ofInterval (makeScreenInterval sha256 participantId strategy .session start none
          [start.sourceDataRow] [] .rightCensoredObservationWindow)
    | none => 0

/-- `construct_direct_unlock_partition` -/
def constructDirectUnlockPartition (strategy : Strategy) (rows : List RawB05Event) :
    ScreenSemanticSignature :=
  (directScan sha256 participantId strategy).run none rows

/-! ## Zhu's rule -/

/-- The rows that end an interval of Zhu's rule. -/
def zhuCloses (signal : AndroidUsageSignal) : Bool :=
  signal = .screenNonInteractive ∨ signal = .deviceShutdown

/-- The interval that `stop` ends. -/
def zhuInterval (start : RawB05Event) (startRows : List Nat) (stop : RawB05Event) :
    ScreenIntervalEvidence :=
  makeScreenInterval sha256 participantId .zhu2018UnlockLockV1 .session start (some stop)
    startRows [stop.sourceDataRow]
    (if stop.signal = .deviceShutdown then .deviceShutdown else .screenNonInteractive)

/-- The interval that is still open at the end. -/
def zhuOpenInterval (start : RawB05Event) (startRows : List Nat) : ScreenIntervalEvidence :=
  makeScreenInterval sha256 participantId .zhu2018UnlockLockV1 .session start none startRows []
    .rightCensoredObservationWindow

/-- The loop of `construct_zhu_partition`: only the physically next row can open an interval. -/
def zhuFrom : Option (RawB05Event × List Nat) → List RawB05Event → ScreenSemanticSignature
  | none, [] => 0
  | some (start, startRows), [] => .ofInterval (zhuOpenInterval sha256 participantId start startRows)
  | none, row :: rest =>
      if row.signal = .screenInteractive then
        match rest.head? with
        | some hidden =>
            if hidden.signal = .keyguardHidden then
              zhuFrom (some (hidden, [row.sourceDataRow, hidden.sourceDataRow])) rest
            else
              .ofIssue (issue participantId row.sourceDataRow
                .zhuScreenInteractiveNextNotKeyguardHidden) + zhuFrom none rest
        | none =>
            .ofIssue (issue participantId row.sourceDataRow .zhuScreenInteractiveNoNextRow) +
              zhuFrom none rest
      else if zhuCloses row.signal then
        .ofIssue (issue participantId row.sourceDataRow .zhuOrphanStop) + zhuFrom none rest
      else zhuFrom none rest
  | some (start, startRows), row :: rest =>
      if zhuCloses row.signal then
        .ofInterval (zhuInterval sha256 participantId start startRows row) + zhuFrom none rest
      else zhuFrom (some (start, startRows)) rest

/-- `construct_zhu_partition` -/
def constructZhuPartition (rows : List RawB05Event) : ScreenSemanticSignature :=
  zhuFrom sha256 participantId none rows

end Partitions

/-! ## Sessions and glances -/

/-- `ParryEndpointKind` -/
inductive ParryEndpointKind where
  | glanceStart
  | glanceStop
  | sessionStart
  | sessionStop
deriving DecidableEq, Repr

/-- `ParryEndpointKind::is_start` -/
def ParryEndpointKind.isStart : ParryEndpointKind → Bool
  | glanceStart | sessionStart => true
  | glanceStop | sessionStop => false

/-- `ParryEndpointKind::interval_kind` -/
def ParryEndpointKind.intervalKind : ParryEndpointKind → ScreenIntervalKind
  | glanceStart | glanceStop => .glance
  | sessionStart | sessionStop => .session

/-- `ParryEndpoint` -/
structure ParryEndpoint where
  row : RawB05Event
  kind : ParryEndpointKind
  classificationRows : List Nat
deriving DecidableEq, Repr

/-- The signals of the screen projection. -/
def parryReads (signal : AndroidUsageSignal) : Bool :=
  match signal with
  | .screenInteractive | .screenNonInteractive | .keyguardShown | .keyguardHidden
  | .deviceShutdown | .deviceStartup => true
  | _ => false

/-- What a row of the screen projection stands for between two neighbours. -/
def parryKind (previous next : Option RawB05Event) (row : RawB05Event) :
    Option ParryEndpointKind :=
  let neighborIs := fun signal : AndroidUsageSignal =>
    previous.any (·.signal = signal) || next.any (·.signal = signal)
  match row.signal with
  | .screenInteractive =>
      some (if neighborIs .keyguardHidden then .sessionStart else .glanceStart)
  | .screenNonInteractive =>
      some (if neighborIs .keyguardShown then .sessionStop else .glanceStop)
  | .deviceShutdown => some .sessionStop
  | .deviceStartup => some .sessionStart
  | _ => none

/-- The neighbour that makes a session endpoint of a screen row. -/
def parryRequiredNeighbor (kind : ParryEndpointKind) (signal : AndroidUsageSignal) :
    Option AndroidUsageSignal :=
  match kind, signal with
  | .sessionStart, .screenInteractive => some .keyguardHidden
  | .sessionStop, .screenNonInteractive => some .keyguardShown
  | _, _ => none

/-- The rows that classify an endpoint, in ascending order. -/
def parryClassificationRows (previous next : Option RawB05Event) (row : RawB05Event)
    (kind : ParryEndpointKind) : List Nat :=
  match parryRequiredNeighbor kind row.signal with
  | none => [row.sourceDataRow]
  | some required =>
      match (previous.toList ++ next.toList).find? (·.signal = required) with
      | some neighbor => [row.sourceDataRow, neighbor.sourceDataRow].insertionSort (· ≤ ·)
      | none => [row.sourceDataRow]

/-- One round of the loop over the screen projection. -/
def parryEndpoint (previous next : Option RawB05Event) (row : RawB05Event) :
    Option ParryEndpoint :=
  (parryKind previous next row).map fun kind =>
    { row, kind, classificationRows := parryClassificationRows previous next row kind }

/-- The loop over the screen projection, after `previous`. -/
def parryEndpoints : Option RawB05Event → List RawB05Event → List ParryEndpoint
  | _, [] => []
  | previous, row :: rest =>
      (parryEndpoint previous rest.head? row).toList ++ parryEndpoints (some row) rest

/-- The endpoints that a pass looks at, and its codes. -/
structure ParryPass where
  start : ParryEndpointKind
  stop : ParryEndpointKind
  startNoNextStop : ScreenConstructionIssueCode
  startNextNotStop : ScreenConstructionIssueCode
  stopNoPreviousStart : ScreenConstructionIssueCode
  stopPreviousNotStart : ScreenConstructionIssueCode

/-- The pass over the glances. -/
def glancePass : ParryPass where
  start := .glanceStart
  stop := .glanceStop
  startNoNextStop := .unmatchedGlanceStartNoNextStop
  startNextNotStop := .unmatchedGlanceStartNextNotStop
  stopNoPreviousStart := .unmatchedGlanceStopNoPreviousStart
  stopPreviousNotStart := .unmatchedGlanceStopPreviousNotStart

/-- The pass over the sessions. -/
def sessionPass : ParryPass where
  start := .sessionStart
  stop := .sessionStop
  startNoNextStop := .unmatchedSessionStartNoNextStop
  startNextNotStop := .unmatchedSessionStartNextNotStop
  stopNoPreviousStart := .unmatchedSessionStopNoPreviousStart
  stopPreviousNotStart := .unmatchedSessionStopPreviousNotStart

/-- What a pass finds wrong with an endpoint between two neighbours. -/
def ParryPass.code (pass : ParryPass) (previous next : Option ParryEndpoint)
    (endpoint : ParryEndpoint) : Option ScreenConstructionIssueCode :=
  if endpoint.kind = pass.start then
    match next with
    | none => some pass.startNoNextStop
    | some next => if next.kind = pass.stop then none else some pass.startNextNotStop
  else if endpoint.kind = pass.stop then
    match previous with
    | none => some pass.stopNoPreviousStart
    | some previous =>
        if previous.kind = pass.start then none else some pass.stopPreviousNotStart
  else none

/-- Every endpoint with what the pass finds wrong with it. -/
def ParryPass.codes (pass : ParryPass) : Option ParryEndpoint → List ParryEndpoint →
    List (ParryEndpoint × Option ScreenConstructionIssueCode)
  | _, [] => []
  | previous, endpoint :: rest =>
      (endpoint, pass.code previous rest.head? endpoint) :: pass.codes (some endpoint) rest

/-- The endpoints that the pass keeps. -/
def ParryPass.kept (pass : ParryPass) (endpoints : List ParryEndpoint) : List ParryEndpoint :=
  (pass.codes none endpoints).filterMap fun entry => if entry.2.isNone then some entry.1 else none

/-- The issues of the pass. -/
def ParryPass.issues (pass : ParryPass) (participantId : String)
    (endpoints : List ParryEndpoint) : List ScreenConstructionIssue :=
  (pass.codes none endpoints).filterMap fun entry =>
    entry.2.map (issue participantId entry.1.row.sourceDataRow)

section Intervals

variable (sha256 : List UInt8 → List UInt8) (participantId : String)

/-- The interval between two surviving endpoints that follow each other. -/
def parryInterval (start stop : ParryEndpoint) : Option ScreenIntervalEvidence :=
  if start.kind.isStart ∧ start.kind.intervalKind = stop.kind.intervalKind then
    some (makeScreenInterval sha256 participantId .parryToth2025SessionGlanceV1
      start.kind.intervalKind start.row (some stop.row) start.classificationRows
      stop.classificationRows
      (if stop.row.signal = .deviceShutdown then .deviceShutdown else .screenNonInteractive))
  else none

/-- The last loop of `construct_parry_toth_partition`. -/
def parryIntervals : List ParryEndpoint → List ScreenIntervalEvidence
  | start :: stop :: rest =>
      (parryInterval sha256 participantId start stop).toList ++ parryIntervals (stop :: rest)
  | _ => []

/-- The passes and the pairing of `construct_parry_toth_partition`. -/
def parryPartition (endpoints : List ParryEndpoint) : ScreenSemanticSignature :=
  let afterGlance := glancePass.kept endpoints
  { intervals := parryIntervals sha256 participantId (sessionPass.kept afterGlance)
    issues := glancePass.issues participantId endpoints ++
      sessionPass.issues participantId afterGlance }

/-- `construct_parry_toth_partition` -/
def constructParryTothPartition (rows : List RawB05Event) : ScreenSemanticSignature :=
  parryPartition sha256 participantId
    (parryEndpoints none (rows.filter fun row => parryReads row.signal))

end Intervals

end Chronicle.Screens
