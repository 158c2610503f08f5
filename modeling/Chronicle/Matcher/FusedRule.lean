import Chronicle.Matcher.SparseOpenStarts

/-!
# The four implementations of the fused rule

`matchAppUsageCore` fills dense arrays from a vector of open starts. The sparse matcher reports
indices and keeps the open starts in lists. With a positive proximity, sorted input takes the
list-based matcher that knows the re-resume grace, and unsorted input takes the legacy one, which
rescans a vector. `matchAppUsageUpdateIndicesWithProximityOpenersCore` chooses among them.
-/

namespace Chronicle.Matcher

/-! ## Dense matching -/

/-- The arrays and the open starts of the dense matcher, oldest start first. -/
structure DenseState where
  startNs : Array Int
  stopNs : Array Int
  missing : Array Bool
  openStartIndices : List Nat
deriving DecidableEq, Repr

section Dense

variable (a : MatchArrays) (options : MatchOptions)

/-- `nearest_compatible_open_start_for_stop`: the position of the newest compatible open start. -/
def nearestCompatibleOpenStartForStop (stopIndex : Nat) (openStartIndices : List Nat) :
    Option Nat :=
  (openStartIndices.zipIdx.reverse.find? fun entry =>
    isCompatibleOpenStartForStop a.toEventArrays options stopIndex entry.1).map Prod.snd

/-- `close_reused_starts`: the compatible open starts, and the ones that stay open. -/
def closeReusedStarts (a : EventArrays) (stopIndex : Nat) (openStartIndices : List Nat) :
    List Nat × List Nat :=
  openStartIndices.partition (isCompatibleOpenStartForStop a options stopIndex)

/-- The stop part of one event of the dense matcher. -/
def denseStop (st : DenseState) (index : Nat) : DenseState :=
  let isStop := isNormalStop a.toEventArrays index || isFallbackStop a.toEventArrays options index
  let currentTimestamp := a.timestamp index
  if options.allowStopEventReuse && isStop then
    let (closed, kept) := closeReusedStarts options a.toEventArrays index st.openStartIndices
    { st with
      stopNs := closed.foldl (fun cells start => cells.setIfInBounds start currentTimestamp)
        st.stopNs
      openStartIndices := kept }
  else if isStop then
    match nearestCompatibleOpenStartForStop a options index st.openStartIndices with
    | some position =>
        let startIndex := st.openStartIndices.getD position 0
        { st with
          stopNs := st.stopNs.setIfInBounds startIndex currentTimestamp
          openStartIndices := st.openStartIndices.eraseIdx position }
    | none => st
  else st

/-- The opening part of one event of the dense matcher. -/
def denseOpen (st : DenseState) (index : Nat) : DenseState :=
  if a.isResumed index then
    { st with
      startNs := st.startNs.setIfInBounds index (a.timestamp index)
      openStartIndices := st.openStartIndices ++ [index] }
  else st

/-- Whether the last event of the stream is accepted as the end of an open start. -/
def acceptsEndOfStream (a : EventArrays) (lastIndex startIndex : Nat) : Bool :=
  decide (lastIndex > startIndex) &&
    isValidDuration (a.timestamp startIndex) (a.timestamp lastIndex) true
      options.longDurationThresholdNs

/-- One still open start at the end of the stream. -/
def denseFinishStep (lastIndex : Nat) (st : DenseState) (startIndex : Nat) : DenseState :=
  if acceptsEndOfStream options a.toEventArrays lastIndex startIndex then
    { st with stopNs := st.stopNs.setIfInBounds startIndex (a.timestamp lastIndex) }
  else { st with missing := st.missing.setIfInBounds startIndex true }

/-- The dense matcher's state before the first event. -/
def denseInit : DenseState where
  startNs := Array.replicate a.len (-1)
  stopNs := Array.replicate a.len (-1)
  missing := Array.replicate a.len false
  openStartIndices := []

/-- `match_app_usage_core`. -/
def matchAppUsageCore : MatcherResult MatchOutput := do
  let len ← validateLengths a.toEventArrays a.resumed
  let st := (List.range len).foldl
    (fun st index => denseOpen a (denseStop a options st index) index) (denseInit a)
  let stillOpen := st.openStartIndices
  let final := stillOpen.foldl (denseFinishStep a options (len - 1))
    { st with openStartIndices := [] }
  pure { startNs := final.startNs, stopNs := final.stopNs, missing := final.missing }

end Dense

/-! ## Sparse matching -/

/-- The lists and index vectors of the sparse matchers. -/
structure SparseState where
  openStarts : SparseOpenStarts
  startIndices : List Nat
  stopStartIndices : List Nat
  stopEventIndices : List Nat
  stopReasons : List EpisodeCloseReason
deriving DecidableEq, Repr

section Sparse

variable (a : EventArrays) (options : MatchOptions)

/-- The duration test of one stop event, for its mode. -/
def sparseValid (mode : SparseStopMode) (index startIndex : Nat) : Bool :=
  isValidDuration (a.timestamp startIndex) (a.timestamp index)
    (sparseStopEnforcesThreshold options mode) options.longDurationThresholdNs

/-- The starts an `OtherApp` stop may close. -/
def otherAppPredicate (index startIndex : Nat) : Bool :=
  a.appCode startIndex != a.appCode index && !a.isBackground startIndex

/-- The starts an `AnyApp` stop may close. -/
def anyAppPredicate (index startIndex : Nat) : Bool :=
  a.appCode startIndex == a.appCode index || !a.isBackground startIndex

/-- The starts one stop event closes when stop events may be reused, newest first. -/
def sparseCloseMatches (mode : SparseStopMode) (index : Nat) (openStarts : SparseOpenStarts) :
    SparseOpenStarts × List Nat :=
  let valid := sparseValid a options mode index
  match mode with
  | .sameApp | .fallbackSameApp => openStarts.closeSameAppMatches (a.appCode index) valid
  | .otherApp => openStarts.closeMatchingGlobal valid (otherAppPredicate a index)
  | .anyApp => openStarts.closeMatchingGlobal valid (anyAppPredicate a index)

/-- The one start a stop event matches when stop events are not reused. -/
def sparseLatestMatch (mode : SparseStopMode) (index : Nat) (openStarts : SparseOpenStarts) :
    SparseOpenStarts × Option Nat :=
  let valid := sparseValid a options mode index
  match mode with
  | .sameApp | .fallbackSameApp => openStarts.latestSameApp (a.appCode index) valid
  | .otherApp => openStarts.latestMatchingGlobal valid (otherAppPredicate a index)
  | .anyApp => openStarts.latestMatchingGlobal valid (anyAppPredicate a index)

/-- Record the starts that one stop event closes, in the order given. -/
def recordCloses (st : SparseState) (openStarts : SparseOpenStarts) (closed : List Nat)
    (index : Nat) : SparseState :=
  { st with
    openStarts := openStarts
    stopStartIndices := st.stopStartIndices ++ closed
    stopEventIndices := st.stopEventIndices ++ closed.map fun _ => index
    stopReasons := classifyNewCloses a st.stopReasons (st.stopStartIndices ++ closed) index }

/-- Close and record the one matched start, if there is one. -/
def recordMatch (st : SparseState) (openStarts : SparseOpenStarts) (matched : Option Nat)
    (index : Nat) : SparseState :=
  match matched with
  | some startIndex => recordCloses a st (openStarts.closeStart startIndex) [startIndex] index
  | none => recordCloses a st openStarts [] index

/-- The stop part of one event of the sparse matcher. -/
def sparseStop (st : SparseState) (index : Nat) : SparseState :=
  match sparseStopMode a options index with
  | none => st
  | some mode =>
      if options.allowStopEventReuse then
        let (openStarts, closed) := sparseCloseMatches a options mode index st.openStarts
        recordCloses a st openStarts closed index
      else
        let (openStarts, matched) := sparseLatestMatch a options mode index st.openStarts
        recordMatch a st openStarts matched index

/-- The opening part of one event, when the event may open an episode. -/
def sparseOpen (opener : Nat → Bool) (st : SparseState) (index : Nat) : SparseState :=
  if opener index then
    { st with
      startIndices := st.startIndices ++ [index]
      openStarts := st.openStarts.openStart index (a.appCode index) }
  else st

/-- The sparse matchers' state before the first event. -/
def sparseInit (openStarts : SparseOpenStarts) : SparseState where
  openStarts := openStarts
  startIndices := []
  stopStartIndices := []
  stopEventIndices := []
  stopReasons := []

/-- The final sweep of a list-based matcher. `order` puts the swept starts, which come newest
first, into the order the matcher reports. -/
def sparseFinish (order : List Nat → List Nat) (st : SparseState) : MatchUpdateIndices :=
  if 0 < a.len then
    let lastIndex := a.len - 1
    let (_, stops, missing) := st.openStarts.finishOpenStarts
      (acceptsEndOfStream options a lastIndex)
    let stopStartIndices := st.stopStartIndices ++ order stops
    { startIndices := st.startIndices
      stopStartIndices := stopStartIndices
      stopEventIndices := st.stopEventIndices ++ (order stops).map fun _ => lastIndex
      missingIndices := order missing
      stopReasons := resize st.stopReasons stopStartIndices.length .endOfStream
      missingReasons := resize [] (order missing).length .unobserved
      stopTimestampsNs := List.replicate stopStartIndices.length none }
  else
    { startIndices := st.startIndices
      stopStartIndices := st.stopStartIndices
      stopEventIndices := st.stopEventIndices
      missingIndices := []
      stopReasons := st.stopReasons
      missingReasons := []
      stopTimestampsNs := List.replicate st.stopStartIndices.length none }

end Sparse

/-- `match_app_usage_update_indices_core`. -/
def matchAppUsageUpdateIndicesCore (a : MatchArrays) (options : MatchOptions) :
    MatcherResult MatchUpdateIndices := do
  let len ← validateLengths a.toEventArrays a.resumed
  let openStarts ← SparseOpenStarts.new a.toEventArrays
  let st := (List.range len).foldl
    (fun st index => sparseOpen a.toEventArrays a.isResumed
      (sparseStop a.toEventArrays options st index) index)
    (sparseInit openStarts)
  pure (sparseFinish a.toEventArrays options id st)

/-! ## Proximity matching -/

/-- The vectors of the legacy matcher. -/
structure LegacyState where
  openStartIndices : List Nat
  startIndices : List Nat
  stopStartIndices : List Nat
  stopEventIndices : List Nat
  stopReasons : List EpisodeCloseReason
deriving DecidableEq, Repr

/-- Record the starts that one stop event closes and the ones that stay open. -/
def legacyRecord (a : EventArrays) (st : LegacyState) (closed kept : List Nat) (index : Nat) :
    LegacyState :=
  { st with
    openStartIndices := kept
    stopStartIndices := st.stopStartIndices ++ closed
    stopEventIndices := st.stopEventIndices ++ closed.map fun _ => index
    stopReasons := st.stopReasons ++ closed.map (legacyCloseReason a index) }

/-- The opening part of one event of the legacy matcher. -/
def legacyOpen (opener : Nat → Bool) (st : LegacyState) (index : Nat) : LegacyState :=
  if opener index then
    { st with
      startIndices := st.startIndices ++ [index]
      openStartIndices := st.openStartIndices ++ [index] }
  else st

/-- Per app, the last event and whether it was a same-app stop; per start, whether it re-resumed
its app inside the grace window. -/
structure ReresumeState where
  lastEventNs : Array (Option Int)
  lastWasSameStop : Array Bool
  isReresume : Array Bool
deriving DecidableEq, Repr

section Proximity

variable (a : OpenerArrays) (options : MatchOptions) (proximityNs : Int)

/-- The re-resume state before the first event. -/
def reresumeInit : ReresumeState where
  lastEventNs := Array.replicate (a.maxAppCode.toNat + 1) none
  lastWasSameStop := Array.replicate (a.maxAppCode.toNat + 1) false
  isReresume := Array.replicate a.len false

/-- Whether the native resume at `index` follows a same-app stop inside the grace window. -/
def reresumes (re : ReresumeState) (index : Nat) : Bool :=
  let slot := (a.appCode index).toNat
  a.isNativeResumed index &&
    match re.lastEventNs.getD slot none with
    | some last =>
        re.lastWasSameStop.getD slot false && decide (a.timestamp index - last < proximityNs)
    | none => false

/-- Record an opener's re-resume flag and the app's last event. -/
def reresumeStep (re : ReresumeState) (index : Nat) : ReresumeState :=
  let slot := (a.appCode index).toNat
  { isReresume :=
      if a.isEligible index then
        re.isReresume.setIfInBounds index (reresumes a proximityNs re index)
      else re.isReresume
    lastEventNs := re.lastEventNs.setIfInBounds slot (some (a.timestamp index))
    lastWasSameStop := re.lastWasSameStop.setIfInBounds slot (a.isSameStop index) }

/-- A re-resumed start this close to its stop is left open: the stop is a teardown artifact. -/
def insideGrace (re : ReresumeState) (stopIndex startIndex : Nat) : Bool :=
  re.isReresume.getD startIndex false &&
    decide (a.timestamp stopIndex - a.timestamp startIndex < proximityNs)

/-- The stop part of one event of the sorted proximity matcher. -/
def sortedStop (re : ReresumeState) (st : SparseState) (index : Nat) : SparseState :=
  match sparseStopMode a.toEventArrays options index with
  | none => st
  | some mode =>
      if options.allowStopEventReuse then
        let (openStarts, closed) :=
          sparseCloseMatches a.toEventArrays options mode index st.openStarts
        recordCloses a.toEventArrays st openStarts closed.reverse index
      else
        let (openStarts, candidate) :=
          sparseLatestMatch a.toEventArrays options mode index st.openStarts
        let matched :=
          if mode = .fallbackSameApp then
            candidate.filter fun startIndex => !insideGrace a proximityNs re index startIndex
          else candidate
        recordMatch a.toEventArrays st openStarts matched index

/-- One event of the sorted proximity matcher. -/
def sortedStep (st : ReresumeState × SparseState) (index : Nat) : ReresumeState × SparseState :=
  (reresumeStep a proximityNs st.1 index,
    sparseOpen a.toEventArrays a.isEligible (sortedStop a options proximityNs st.1 st.2 index)
      index)

/-- `match_sorted_app_usage_update_indices_with_proximity`. -/
def matchSortedAppUsageUpdateIndicesWithProximity : MatcherResult MatchUpdateIndices := do
  -- `max_app_code as usize + 1` slots: a most negative maximum asks for an impossible vector.
  if a.maxAppCode < -1 then throw (.panicked "capacity overflow")
  let openStarts ← SparseOpenStarts.new a.toEventArrays
  let st := (List.range a.len).foldl (sortedStep a options proximityNs)
    (reresumeInit a, sparseInit openStarts)
  pure (sparseFinish a.toEventArrays options List.reverse st.2)

/-- The legacy scan over the open starts, newest first, with their positions. A start inside the
grace window ends the scan without a match. -/
def legacyMatchedPosition (re : ReresumeState) (index : Nat) : List (Nat × Nat) → Option Nat
  | [] => none
  | (startIndex, position) :: older =>
      let sameApp := sameAppCompatible a.toEventArrays index startIndex
      let otherApp := otherAppCompatible a.toEventArrays index startIndex
      let fallback := fallbackCompatible a.toEventArrays options index startIndex
      if !(sameApp || otherApp || fallback) then legacyMatchedPosition re index older
      else if !isValidDuration (a.timestamp startIndex) (a.timestamp index)
          (!fallback || options.applyThresholdToFallback) options.longDurationThresholdNs then
        legacyMatchedPosition re index older
      else if fallback && insideGrace a proximityNs re index startIndex then none
      else some position

/-- The stop part of one event of the legacy matcher. -/
def legacyStop (re : ReresumeState) (st : LegacyState) (index : Nat) : LegacyState :=
  let isStop := isNormalStop a.toEventArrays index || isFallbackStop a.toEventArrays options index
  if options.allowStopEventReuse && isStop then
    let (closed, kept) := closeReusedStarts options a.toEventArrays index st.openStartIndices
    legacyRecord a.toEventArrays st closed kept index
  else if isStop then
    match legacyMatchedPosition a options proximityNs re index
        st.openStartIndices.zipIdx.reverse with
    | some position =>
        legacyRecord a.toEventArrays st [st.openStartIndices.getD position 0]
          (st.openStartIndices.eraseIdx position) index
    | none => st
  else st

/-- One event of the legacy matcher. -/
def legacyStep (st : ReresumeState × LegacyState) (index : Nat) : ReresumeState × LegacyState :=
  (reresumeStep a proximityNs st.1 index,
    legacyOpen a.isEligible (legacyStop a options proximityNs st.1 st.2 index) index)

/-- The legacy matcher's end of stream: its open starts are closed or reported missing. -/
def legacyFinish (st : LegacyState) : MatchUpdateIndices :=
  if 0 < a.len then
    let lastIndex := a.len - 1
    let (stops, missing) := st.openStartIndices.partition
      (acceptsEndOfStream options a.toEventArrays lastIndex)
    { startIndices := st.startIndices
      stopStartIndices := st.stopStartIndices ++ stops
      stopEventIndices := st.stopEventIndices ++ stops.map fun _ => lastIndex
      missingIndices := missing
      stopReasons := st.stopReasons ++ stops.map fun _ => .endOfStream
      missingReasons := missing.map fun _ => .unobserved
      stopTimestampsNs := List.replicate (st.stopStartIndices ++ stops).length none }
  else
    { startIndices := st.startIndices
      stopStartIndices := st.stopStartIndices
      stopEventIndices := st.stopEventIndices
      missingIndices := []
      stopReasons := st.stopReasons
      missingReasons := []
      stopTimestampsNs := List.replicate st.stopStartIndices.length none }

/-- The legacy matcher's state before the first event. -/
def legacyInit : LegacyState where
  openStartIndices := []
  startIndices := []
  stopStartIndices := []
  stopEventIndices := []
  stopReasons := []

/-- `match_legacy_app_usage_update_indices_with_proximity`. -/
def matchLegacyAppUsageUpdateIndicesWithProximity : MatcherResult MatchUpdateIndices := do
  if a.hasNegativeCode then throw negativeCodeError
  let st := (List.range a.len).foldl (legacyStep a options proximityNs)
    (reresumeInit a, legacyInit)
  pure (legacyFinish a options st.2)

/-- `timestamp_ns.windows(2).all(|pair| pair[0] <= pair[1])`. -/
def timestampsSorted (timestampNs : Array Int) : Bool :=
  (timestampNs.toList.zip timestampNs.toList.tail).all fun pair => decide (pair.1 ≤ pair.2)

/-- `match_app_usage_update_indices_with_proximity_openers_core`. -/
def matchAppUsageUpdateIndicesWithProximityOpenersCore : MatcherResult MatchUpdateIndices := do
  let _ ← validateLengths a.toEventArrays a.nativeResumed
  if a.eligibleOpener.size ≠ a.len then throw lengthError
  if proximityNs < 0 then throw (.error "proximity_ns must be non-negative")
  if proximityNs = 0 then
    matchAppUsageUpdateIndicesCore { a with resumed := a.eligibleOpener } options
  else if timestampsSorted a.timestampNs then
    matchSortedAppUsageUpdateIndicesWithProximity a options proximityNs
  else matchLegacyAppUsageUpdateIndicesWithProximity a options proximityNs

end Proximity

end Chronicle.Matcher
