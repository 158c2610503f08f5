import Chronicle.Eyes.FinalAppUsage
import Chronicle.Eyes.Signals

/-!
# The device-state blocks

SHUTDOWN and IDLE brackets, GAP segments and GLANCE candidates are built separately, reconciled by
precedence, and collected into one sorted block set. The events come with their signals, in order of
time.
-/

namespace Chronicle.Eyes

open Chronicle.Library Chronicle.Library.Machine Chronicle.Library.StableSort

/-- Whether an event opens or closes a bracket. -/
inductive BracketRole where
  | opening
  | closing
deriving DecidableEq, Repr

/-- `bracket_stream` -/
def bracketStream (events : List (EyesEvent × EyesSignal)) (opens closes : EyesSignal → Bool) :
    List (Int × BracketRole) :=
  events.filterMap fun (event, signal) =>
    if opens signal then some (event.timestampNs, .opening)
    else if closes signal then some (event.timestampNs, .closing)
    else none

/-- `glue_pairwise`: two neighbours of one role at most the glue apart become one. -/
def gluePairwise (glueNs : Int) : List (Int × BracketRole) → List (Int × BracketRole)
  | [] => []
  | [entry] => [entry]
  | (timestamp, role) :: (nextTimestamp, nextRole) :: rest =>
      let delta := wrap64 (nextTimestamp - timestamp)
      if nextRole = role ∧ 0 ≤ delta ∧ delta ≤ glueNs then
        (match role with
          | .opening => nextTimestamp
          | .closing => timestamp, role) :: gluePairwise glueNs rest
      else (timestamp, role) :: gluePairwise glueNs ((nextTimestamp, nextRole) :: rest)

/-- `build_bracket_blocks`: the blocks from here on, given the pending open. -/
def buildBracketBlocks (blockType : EyesBlockType) (closeRequiresStrictlyAfter : Bool) :
    List (Int × BracketRole) → Option Int → List EyesBlock
  | [], none => []
  | [], some start => [⟨blockType, some start, none⟩]
  | (timestamp, .opening) :: rest, pending =>
      (match pending with
        | some previous => [⟨blockType, some previous, none⟩]
        | none => []) ++
      buildBracketBlocks blockType closeRequiresStrictlyAfter rest (some timestamp)
  | (timestamp, .closing) :: rest, pending =>
      let pairs := pending.any fun start =>
        if closeRequiresStrictlyAfter then timestamp > start else timestamp ≥ start
      if pairs then
        ⟨blockType, pending, some timestamp⟩ ::
          buildBracketBlocks blockType closeRequiresStrictlyAfter rest none
      else
        ⟨blockType, none, some timestamp⟩ ::
          buildBracketBlocks blockType closeRequiresStrictlyAfter rest pending

/-! ## Gaps -/

/-- `push_gap_segment` -/
def pushGapSegment (segments : List (Int × Int)) (start stop : Int) : List (Int × Int) :=
  if stop ≤ start then segments
  else
    match segments.getLast? with
    | some last =>
        if start < last.2 then
          if stop > last.2 then segments.dropLast ++ [(last.1, stop)] else segments
        else segments ++ [(start, stop)]
    | none => segments ++ [(start, stop)]

/-- The instant of the event at an index. -/
def instantAt (events : List (EyesEvent × EyesSignal)) (index : Nat) : Int :=
  (events[index]?).elim 0 fun entry => entry.1.timestampNs

/-- The first event from a shutdown-class reboot on that is far enough after it. -/
def farAfter (events : List (EyesEvent × EyesSignal)) (neighbourNs : Int) (index : Nat)
    (timestamp : Int) : Option Nat :=
  (((events.drop index).findIdx? fun entry =>
    wrap64 (entry.1.timestampNs - timestamp) ≥ neighbourNs).map (index + ·)).filter (· > index)

/-- The last event up to a startup-class reboot that is far enough before it. -/
def farBefore (events : List (EyesEvent × EyesSignal)) (neighbourNs : Int) (index : Nat)
    (timestamp : Int) : Option Nat :=
  (((events.take (index + 1)).reverse.findIdx? fun entry =>
    wrap64 (timestamp - entry.1.timestampNs) ≥ neighbourNs).map (index - ·)).filter (· < index)

/-- The loop of `detect_gap_segments`: the cursor, the predecessor's instant and the segments so
far. Each pass moves the cursor forward, so as many passes as there are events suffice. -/
def gapLoop (events : List (EyesEvent × EyesSignal)) (silenceNs neighbourNs : Int) :
    Nat → Nat → Option Int → List (Int × Int) → List (Int × Int)
  | 0, _, _, segments => segments
  | fuel + 1, index, previous, segments =>
      match events[index]? with
      | none => segments
      | some (event, signal) =>
          let timestamp := event.timestampNs
          let next := gapLoop events silenceNs neighbourNs fuel (index + 1) (some timestamp)
          match previous with
          | none => next segments
          | some previousTimestamp =>
              if wrap64 (timestamp - previousTimestamp) ≥ silenceNs then
                next (pushGapSegment segments previousTimestamp timestamp)
              else if signal.isShutdownClassReboot then
                match farAfter events neighbourNs index timestamp with
                | some far =>
                    gapLoop events silenceNs neighbourNs fuel far (some timestamp)
                      (pushGapSegment segments timestamp (instantAt events far))
                | none => next segments
              else if signal.isStartupClassReboot then
                match farBefore events neighbourNs index timestamp with
                | some far => next (pushGapSegment segments (instantAt events far) timestamp)
                | none => next segments
              else next segments

/-- `detect_gap_segments` -/
def detectGapSegments (events : List (EyesEvent × EyesSignal)) (options : EyesOptions) :
    List (Int × Int) :=
  gapLoop events (secondsToNs (options.gapSilenceHours.mulConst 3600))
    (secondsToNs options.gapRebootNeighborSeconds) events.length 0 none []

/-! ## Glances -/

/-- What an event means for a glance candidate. -/
inductive GlanceSignal where
  | wake
  | sleep
  | unlock
  | cancel
deriving DecidableEq, Repr

/-- An entry of the glance stream, with its source file and its place there. -/
structure GlanceEntry where
  timestamp : Int
  source : Nat
  order : Nat
  glanceSignal : GlanceSignal
deriving DecidableEq, Repr

/-- Which file an event reaches the glance stream through, and what it means there: `0` is the idle
stream and `1` the shutdown stream. -/
def glanceSource : EyesSignal → Option (Nat × GlanceSignal)
  | .screenInteractive => some (0, .wake)
  | .screenNonInteractive => some (0, .sleep)
  | .keyguardHidden => some (0, .unlock)
  | .deviceShutdown | .userStopped => some (1, .cancel)
  | _ => none

/-- The sorted glance stream; gap starts are the third file. -/
def glanceStream (events : List (EyesEvent × EyesSignal)) (gapSegments : List (Int × Int)) :
    List GlanceEntry :=
  sortByKey (fun entry => toLex (entry.timestamp, toLex (entry.source, entry.order)))
    ((events.zipIdx.filterMap fun ((event, signal), order) =>
      (glanceSource signal).map fun (source, glanceSignal) =>
        ⟨event.timestampNs, source, order, glanceSignal⟩) ++
    gapSegments.zipIdx.map fun ((start, _), index) => ⟨start, 2, index, .cancel⟩)

/-- The glances from here on, given the pending wake. -/
def glanceBlocksFrom : List GlanceEntry → Option Int → List EyesBlock
  | [], _ => []
  | entry :: rest, pendingStart =>
      match entry.glanceSignal with
      | .wake => glanceBlocksFrom rest (some entry.timestamp)
      | .unlock =>
          glanceBlocksFrom rest
            (if pendingStart.any (entry.timestamp ≥ ·) then none else pendingStart)
      | .sleep =>
          (match pendingStart with
            | some start =>
                if entry.timestamp > start then [⟨.glance, some start, some entry.timestamp⟩]
                else []
            | none => []) ++ glanceBlocksFrom rest none
      | .cancel => glanceBlocksFrom rest none

/-- `build_glance_blocks` -/
def buildGlanceBlocks (events : List (EyesEvent × EyesSignal)) (gapSegments : List (Int × Int)) :
    List EyesBlock :=
  glanceBlocksFrom (glanceStream events gapSegments) none

/-! ## Reconciliation -/

/-- A block whose length is nonzero and within the tolerance is passed over. -/
def skippable (toleranceNs : Int) (block : EyesBlock) : Bool :=
  block.durationSecondsTruncated.any fun seconds =>
    seconds ≠ 0 ∧ seconds ≤ toleranceNs.tdiv 1000000000

/-- The loop of `reconcile_with_gaps`. Each pass moves a cursor forward, so as many passes as there
are blocks suffice. -/
def reconcileLoop (toleranceNs : Int) (claimType : EyesBlockType) (guardUnclaimed : Bool) :
    Nat → Nat → Nat → List EyesBlock → List EyesBlock → List EyesBlock × List EyesBlock
  | 0, _, _, brackets, gaps => (brackets, gaps)
  | fuel + 1, bracketIndex, gapIndex, brackets, gaps =>
      let loop := reconcileLoop toleranceNs claimType guardUnclaimed fuel
      match brackets[bracketIndex]?, gaps[gapIndex]? with
      | some bracket, some gap =>
          if skippable toleranceNs bracket then loop (bracketIndex + 1) gapIndex brackets gaps
          else if skippable toleranceNs gap then loop bracketIndex (gapIndex + 1) brackets gaps
          else
            match gap.startNs, gap.endNs with
            | some gapStart, some gapEnd =>
                let claimable := !guardUnclaimed || gap.blockType = .gap
                let claimed :=
                  if claimable then gaps.set gapIndex { gap with blockType := claimType } else gaps
                match bracket.startNs, bracket.endNs with
                | none, some bracketEnd =>
                    if wrapAbs64 (wrap64 (bracketEnd - gapEnd)) ≤ toleranceNs then
                      loop (bracketIndex + 1) (gapIndex + 1)
                        (if claimable then
                          brackets.set bracketIndex { bracket with startNs := some gapStart }
                        else brackets) claimed
                    else if gapEnd > bracketEnd then loop (bracketIndex + 1) gapIndex brackets gaps
                    else loop bracketIndex (gapIndex + 1) brackets gaps
                | some bracketStart, none =>
                    if wrapAbs64 (wrap64 (bracketStart - gapStart)) ≤ toleranceNs then
                      loop (bracketIndex + 1) (gapIndex + 1)
                        (if claimable then
                          brackets.set bracketIndex { bracket with endNs := some gapEnd }
                        else brackets) claimed
                    else if gapStart > bracketStart then
                      loop (bracketIndex + 1) gapIndex brackets gaps
                    else loop bracketIndex (gapIndex + 1) brackets gaps
                | some bracketStart, some bracketEnd =>
                    -- containment: one bracket can absorb several gaps
                    if gapStart ≥ wrap64 (bracketStart - toleranceNs) ∧
                        gapEnd ≤ wrap64 (bracketEnd + toleranceNs) then
                      loop bracketIndex (gapIndex + 1) brackets claimed
                    else if gapEnd > bracketEnd then loop (bracketIndex + 1) gapIndex brackets gaps
                    else loop bracketIndex (gapIndex + 1) brackets gaps
                | none, none => loop (bracketIndex + 1) gapIndex brackets gaps
            | _, _ => loop bracketIndex (gapIndex + 1) brackets gaps
      | _, _ => (brackets, gaps)

/-- `reconcile_with_gaps` -/
def reconcileWithGaps (brackets gaps : List EyesBlock) (toleranceNs : Int)
    (claimType : EyesBlockType) (guardUnclaimed : Bool) : List EyesBlock × List EyesBlock :=
  reconcileLoop toleranceNs claimType guardUnclaimed (brackets.length + gaps.length) 0 0 brackets
    gaps

/-! ## Exclusion -/

/-- The loop over the shutdown spans for one idle block. -/
def carveLoop (stop : Int) : List (Int × Int) → Int → List EyesBlock
  | [], cursor => if cursor < stop then [⟨.idle, some cursor, some stop⟩] else []
  | (shutdownStart, shutdownEnd) :: rest, cursor =>
      if shutdownEnd ≤ cursor then carveLoop stop rest cursor
      else if shutdownStart ≥ stop then carveLoop stop [] cursor
      else
        (if shutdownStart > cursor then [⟨.idle, some cursor, some (min shutdownStart stop)⟩]
        else []) ++
        (if max cursor shutdownEnd ≥ stop then carveLoop stop [] (max cursor shutdownEnd)
        else carveLoop stop rest (max cursor shutdownEnd))

/-- `exclude_shutdown_from_idle` -/
def excludeShutdownFromIdle (idle shutdown : List EyesBlock) : List EyesBlock :=
  let shutdownSpans := sortByKey (fun span : Int × Int => toLex span)
    ((shutdown.filter fun block => block.blockType = .shutdown).filterMap EyesBlock.paired)
  idle.flatMap fun block =>
    if block.blockType ≠ .idle then []
    else
      match block.paired with
      | none => []
      | some (start, stop) => carveLoop stop shutdownSpans start

/-- `exclude_overlapping_blocks` -/
def excludeOverlappingBlocks (blocks masks : List EyesBlock) : List EyesBlock :=
  let maskSpans := masks.filterMap EyesBlock.paired
  blocks.filter fun block =>
    match block.paired with
    | none => false
    | some (start, stop) => !maskSpans.any fun (maskStart, maskEnd) =>
        maskEnd > start ∧ maskStart < stop

/-! ## The block set -/

/-- `build_block_set` -/
def buildBlockSet (events : List (EyesEvent × EyesSignal)) (options : EyesOptions) :
    List EyesBlock :=
  let glueNs := secondsToNs options.blockGlueSeconds
  let toleranceNs := secondsToNs options.gapReconcileSeconds
  let shutdownStream :=
    bracketStream events EyesSignal.opensShutdown EyesSignal.closesShutdown
  let shutdownBlocks := buildBracketBlocks .shutdown false (gluePairwise glueNs shutdownStream) none
  let idleStream := bracketStream events EyesSignal.opensIdle EyesSignal.closesIdle
  let idleBlocks := buildBracketBlocks .idle true (gluePairwise glueNs idleStream) none
  let gapSegments := detectGapSegments events options
  let gapBlocks := gapSegments.map fun (start, stop) => ⟨.gap, some start, some stop⟩
  let glanceBlocks := buildGlanceBlocks events gapSegments
  let (shutdownBlocks, gapBlocks) :=
    reconcileWithGaps shutdownBlocks gapBlocks toleranceNs .shutdown false
  let (idleBlocks, gapBlocks) := reconcileWithGaps idleBlocks gapBlocks toleranceNs .idle true
  let carvedIdle := excludeShutdownFromIdle idleBlocks shutdownBlocks
  let survivingGaps := gapBlocks.filter fun block => block.blockType = .gap
  let survivingGlances := excludeOverlappingBlocks glanceBlocks (shutdownBlocks ++ survivingGaps)
  sortByKey EyesBlock.key (shutdownBlocks ++ carvedIdle ++ survivingGlances ++ survivingGaps)

/-! ## The pickup export -/

/-- One row of the pickup export. -/
structure EyesPickupRow where
  blockType : EyesBlockType
  startNs : Int
  endNs : Int
deriving DecidableEq, Repr

/-- `EyesPickupRow::duration_ns` -/
def EyesPickupRow.durationNs (row : EyesPickupRow) : Int := wrap64 (row.endNs - row.startNs)

/-- The rows from here on, given the running end. -/
def pickupRowsFrom (holeNs : Int) : List TimedBlock → Option Int → List EyesPickupRow
  | [], _ => []
  | block :: rest, runningEnd =>
      (match runningEnd with
        | some previousEnd =>
            if wrap64 (block.startNs - previousEnd) ≥ holeNs then
              [⟨.active, previousEnd, block.startNs⟩]
            else []
        | none => []) ++
      ⟨block.blockType, block.startNs, block.endNs⟩ ::
        pickupRowsFrom holeNs rest (some (runningEnd.elim block.endNs (max · block.endNs)))

/-- `build_pickup_export` -/
def buildPickupExport (blocks : List EyesBlock) (options : EyesOptions) : List EyesPickupRow :=
  let usable := sortByKey TimedBlock.key <| blocks.filterMap fun block =>
    block.paired.map fun (start, stop) => ⟨start, stop, block.blockType⟩
  (pickupRowsFrom (secondsToNs options.pickupActiveHoleSeconds) usable none).filter fun row =>
    row.durationNs.tdiv 1000000000 ≥ options.pickupMinimumSeconds.truncToI64

end Chronicle.Eyes
