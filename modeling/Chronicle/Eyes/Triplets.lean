import Chronicle.Eyes.Signals

/-!
# App triplets

`reconstruct_app_triplets` keeps an arena of blocks and, for each package, queues of the blocks that
wait for a pause, wait for a stop, or are closed. Queues are only ever looked up by package, so the
map is a function, empty where nothing was inserted; the order of first appearance is kept beside
it. A second pass walks the queues and resolves each block's duration.
-/

namespace Chronicle.Eyes

open Chronicle.Library Chronicle.Library.Machine

/-- An `ActivityBlock`; `next` is its successor in the order of creation. -/
structure TripletBlock where
  appName : String
  timeResume : Option Int
  timePause : Option Int
  timeStop : Option Int
  resumeInference : EyesResumeInference
  pauseInference : EyesPauseInference
  endInference : EyesEpisodeEndInference
  next : Option Nat
deriving DecidableEq, Repr

/-- The queues of one package. -/
structure PackageQueues where
  resume : List Nat
  pause : List Nat
  stop : List Nat
deriving DecidableEq, Repr

/-- The state of the reconstruction. -/
structure TripletState where
  arena : List TripletBlock
  queues : String → PackageQueues
  packageOrder : List String
  previousLinked : Option Nat
  lastStopBlock : Option Nat

/-- The state before the first event. -/
def TripletState.initial : TripletState := ⟨[], fun _ => ⟨[], [], []⟩, [], none, none⟩

namespace TripletState

/-- Change one block of the arena. -/
def setBlock (index : Nat) (f : TripletBlock → TripletBlock) (s : TripletState) : TripletState :=
  { s with arena := s.arena.modify index f }

/-- Replace the queues of a package. -/
def setQueues (package : String) (queues : PackageQueues) (s : TripletState) : TripletState :=
  { s with queues := Function.update s.queues package queues }

/-- `ensure_package` -/
def ensurePackage (package : String) (s : TripletState) : TripletState :=
  if package ∈ s.packageOrder then s
  else
    { s.setQueues package ⟨[], [], []⟩ with packageOrder := s.packageOrder ++ [package] }

/-- Push a block, and link it as the successor of the one created before it. -/
def create (block : TripletBlock) (s : TripletState) : TripletState :=
  let created := s.arena.length
  let arena := s.arena ++ [block]
  { s with
    arena := match s.previousLinked with
      | some previous => arena.modify previous fun b => { b with next := some created }
      | none => arena
    previousLinked := some created }

end TripletState

/-- Move blocks from the front of one queue to another, marking each, until the target is taken. -/
def drainUntil (target : Nat) (mark : TripletBlock → TripletBlock) :
    List Nat → List TripletBlock → List Nat → List Nat × List TripletBlock × List Nat
  | [], arena, moved => ([], arena, moved)
  | front :: rest, arena, moved =>
      if front = target then (rest, arena, moved)
      else drainUntil target mark rest (arena.modify front mark) (moved ++ [front])

/-- Mark every block of a queue. -/
def markAll (mark : TripletBlock → TripletBlock) (queue : List Nat) (arena : List TripletBlock) :
    List TripletBlock :=
  queue.foldl (fun arena front => arena.modify front mark) arena

/-- An end that nothing has decided yet becomes the given one. -/
def TripletBlock.endIfUnobserved (inference : EyesEpisodeEndInference) (b : TripletBlock) :
    TripletBlock :=
  if b.endInference = .unobserved then { b with endInference := inference } else b

/-- The end becomes the given one. -/
def TripletBlock.endAs (inference : EyesEpisodeEndInference) (b : TripletBlock) : TripletBlock :=
  { b with endInference := inference }

/-- The pause is bound at the instant. -/
def TripletBlock.pausedAt (timestamp : Int) (inference : EyesPauseInference) (b : TripletBlock) :
    TripletBlock :=
  { b with timePause := some timestamp, pauseInference := inference }

/-- The stop is bound at the instant. -/
def TripletBlock.stoppedAt (timestamp : Int) (inference : EyesEpisodeEndInference)
    (b : TripletBlock) : TripletBlock :=
  { b with timeStop := some timestamp, endInference := inference }

/-- An older resume was superseded. -/
def TripletBlock.superseded (b : TripletBlock) : TripletBlock :=
  { b with pauseInference := .nextBlockPausedInference }

/-- `in_proximity` -/
def inProximity (proximityNs left right : Int) : Bool :=
  wrapAbs64 (wrap64 (right - left)) < proximityNs

namespace TripletState

section Events

variable (proximityNs : Int) (package : String) (timestamp : Int)

/-- `Activity Resumed` opens a block. -/
def onResumed (s : TripletState) : TripletState :=
  let created := s.arena.length
  let s := (s.create ⟨package, some timestamp, none, none, .observed, .unobserved, .unobserved,
    none⟩).ensurePackage package
  let queues := s.queues package
  s.setQueues package { queues with resume := queues.resume ++ [created] }

/-- Whether the block's resume is near the event. -/
def resumedNear (index : Nat) (s : TripletState) : Bool :=
  ((s.arena[index]?).bind TripletBlock.timeResume).any fun resume =>
    inProximity proximityNs resume timestamp

/-- `Activity Paused` binds to a waiting block, or opens one that misses its resume. -/
def onPaused (s : TripletState) : TripletState :=
  let s := s.ensurePackage package
  let queues := s.queues package
  match queues.resume.reverse with
  | newest :: older :: _ =>
      -- bind to the older block if the newest directly succeeds it and is near
      let (target, inference) :=
        if (s.arena[older]?).bind TripletBlock.next = some newest ∧
            s.resumedNear proximityNs timestamp newest then
          (older, EyesPauseInference.matchingPreviousBlock)
        else (newest, EyesPauseInference.matchingCurrentBlock)
      let s := s.setBlock target (TripletBlock.pausedAt timestamp inference)
      let (resume, arena, pause) :=
        drainUntil target TripletBlock.superseded queues.resume s.arena queues.pause
      { s.setQueues package { queues with resume, pause := pause ++ [target] } with arena }
  | [block] =>
      (s.setBlock block (TripletBlock.pausedAt timestamp .observed)).setQueues package
        { queues with resume := [], pause := queues.pause ++ [block] }
  | [] =>
      let created := s.arena.length
      let s := s.create ⟨package, none, some timestamp, none, .missingActivityResumed, .observed,
        .unobserved, none⟩
      s.setQueues package { queues with pause := queues.pause ++ [created] }

/-- `Activity Stopped` closes a waiting block, kills the package, or stands alone. -/
def onStopped (s : TripletState) : TripletState :=
  let s := s.ensurePackage package
  let queues := s.queues package
  match queues.resume.getLast? with
  | none =>
      match queues.pause.getLast? with
      | none =>
          let created := s.arena.length
          let s := s.create ⟨package, none, none, some timestamp, .observed, .unobserved,
            .observedStop, none⟩
          s.setQueues package { queues with stop := queues.stop ++ [created] }
      | some current =>
          let s := s.setBlock current (TripletBlock.stoppedAt timestamp .observedStop)
          let (pause, arena, stop) := drainUntil current
            (TripletBlock.endIfUnobserved .nextBlockStoppedInference) queues.pause s.arena
            queues.stop
          { s.setQueues package { queues with pause, stop := stop ++ [current] } with
            arena
            lastStopBlock := some current }
  | some newest =>
      if s.resumedNear proximityNs timestamp newest then
        let (current, queues) := match queues.pause.getLast? with
          | some block => (block, { queues with pause := queues.pause.dropLast })
          | none => (queues.resume.headD 0, { queues with resume := queues.resume.tail })
        let s := s.setBlock current (TripletBlock.stoppedAt timestamp .observedStop)
        { s.setQueues package { queues with stop := queues.stop ++ [current] } with
          lastStopBlock := some current }
      else
        -- the package was killed: every one of its blocks closes
        let s := s.setBlock newest (TripletBlock.stoppedAt timestamp .appKilled)
        let arena := markAll (TripletBlock.endAs .appKilled) queues.resume
          (markAll (TripletBlock.endIfUnobserved .appKilled) queues.pause s.arena)
        { s.setQueues package ⟨[], [], queues.stop ++ queues.pause ++ queues.resume⟩ with arena }

/-- A reboot closes the waiting blocks of one package. -/
def rebootPackage (s : TripletState) (package : String) : TripletState :=
  let queues := s.queues package
  let arena := markAll (TripletBlock.endAs .systemShutDown) queues.resume
    (markAll (TripletBlock.endAs .systemShutDown) queues.pause s.arena)
  { s.setQueues package ⟨[], [], queues.stop ++ queues.pause ++ queues.resume⟩ with arena }

/-- A reboot closes the last stopped block if it has no stop, and every waiting block. -/
def onReboot (s : TripletState) : TripletState :=
  let s := match s.lastStopBlock with
    | some current =>
        if ((s.arena[current]?).bind TripletBlock.timeStop).isNone then
          s.setBlock current (TripletBlock.stoppedAt timestamp .systemShutDown)
        else s
    | none => s
  s.packageOrder.foldl rebootPackage s

end Events

/-- One event of the stream. -/
def step (proximityNs : Int) (s : TripletState) (entry : EyesEvent × EyesSignal) : TripletState :=
  let (event, signal) := entry
  match signal with
  | .activityResumed => s.onResumed event.appPackageName event.timestampNs
  | .activityPaused => s.onPaused proximityNs event.appPackageName event.timestampNs
  | .activityStopped => s.onStopped proximityNs event.appPackageName event.timestampNs
  | signal => if signal.isTripletReboot then s.onReboot event.timestampNs else s

/-- The order in which the blocks are emitted: all waiting for a pause, then all waiting for a
stop, then all closed. -/
def emissionOrder (s : TripletState) : List Nat :=
  (s.packageOrder.flatMap fun package => (s.queues package).resume) ++
    (s.packageOrder.flatMap fun package => (s.queues package).pause) ++
    s.packageOrder.flatMap fun package => (s.queues package).stop

end TripletState

/-! ## Durations -/

/-- `seconds_between` -/
def secondsBetween (start stop : Int) : Binary64 :=
  (Binary64.ofInt (wrap64 (stop - start))).divConst 1000000000

/-- The walk along the chain to the first block that carries a stop or belongs to another package.
A successor is created later than its predecessor, so as many steps as there are blocks suffice. -/
def walkChain (arena : List TripletBlock) (appName : String) : Nat → Option Nat → Option Nat
  | 0, _ => none
  | _ + 1, none => none
  | fuel + 1, some candidate =>
      match arena[candidate]? with
      | none => none
      | some block =>
          if block.timeStop.isSome ∨ block.appName ≠ appName then some candidate
          else walkChain arena appName fuel block.next

/-- Without a usable stop the pause bounds the block, and without a pause its duration is zero. -/
def TripletBlock.boundedByPause (resume : Int) (block : TripletBlock) : TripletBlock × Binary64 :=
  match block.timePause with
  | some pause => (block.endAs .pauseFallback, secondsBetween resume pause)
  | none => (block, .finite 0)

/-- The repair of an anomalous stop that carries no instant: the repaired block and its duration. -/
def repairBlock (arena : List TripletBlock) (resume : Int) (block : TripletBlock) :
    TripletBlock × Binary64 :=
  match (walkChain arena block.appName (arena.length + 1) block.next).bind (arena[·]?) with
  | none => block.boundedByPause resume
  | some candidate =>
      let repaired :=
        if candidate.appName = block.appName then
          { block with
            timeStop := candidate.timeStop, endInference := .nextBlockStoppedInference }
        else { block with timeStop := candidate.timeResume, endInference := .missingStop }
      (repaired, repaired.timeStop.elim (.finite 0) (secondsBetween resume))

/-- `resolve_duration` of one block: the block after any repair, and its duration. -/
def resolveBlock (arena : List TripletBlock) (durationMode : EyesDurationMode)
    (block : TripletBlock) : TripletBlock × Binary64 :=
  match block.timeResume with
  | none => (block, .finite 0)
  | some resume =>
      if durationMode = .pauseBound then
        (block, block.timePause.elim (.finite 0) (secondsBetween resume))
      else
        match block.endInference, block.timeStop with
        | .observedStop, some stop => (block, secondsBetween resume stop)
        | .nextBlockStoppedInference, some stop | .appKilled, some stop
        | .systemShutDown, some stop => (block, secondsBetween resume stop)
        | .nextBlockStoppedInference, none | .appKilled, none | .systemShutDown, none =>
            repairBlock arena resume block
        | _, _ => block.boundedByPause resume

/-- The episode that a resolved block is emitted as. -/
def TripletBlock.episode (block : TripletBlock) (durationSeconds : Binary64) : EyesAppEpisode where
  appPackageName := block.appName
  timeResumeNs := block.timeResume
  timePauseNs := block.timePause
  timeStopNs := block.timeStop
  resumeInference := block.resumeInference
  pauseInference := block.pauseInference
  endInference := block.endInference
  durationSeconds

/-- The second pass: a repaired block is seen by the walks that come after it. -/
def emitEpisodes (durationMode : EyesDurationMode) :
    List Nat → List TripletBlock → List EyesAppEpisode
  | [], _ => []
  | index :: rest, arena =>
      match arena[index]? with
      | none => emitEpisodes durationMode rest arena
      | some block =>
          let (resolved, durationSeconds) := resolveBlock arena durationMode block
          resolved.episode durationSeconds ::
            emitEpisodes durationMode rest (arena.set index resolved)

/-- `reconstruct_app_triplets` -/
def reconstructAppTriplets (events : List (EyesEvent × EyesSignal)) (options : EyesOptions) :
    List EyesAppEpisode :=
  let s := events.foldl
    (TripletState.step (secondsToNs options.proximityIntervalSeconds)) TripletState.initial
  emitEpisodes options.durationMode s.emissionOrder s.arena

end Chronicle.Eyes
