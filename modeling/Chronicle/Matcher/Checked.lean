import Chronicle.Matcher.FusedRule

/-!
# The fused rule with its checks

The same matchers with every access to an array or a vector checked, as the code's indexing is: an
index out of bounds is a panic, and so is a walk that runs out of steps. An app code is used as a
slot through `as usize`, which turns a negative one into a huge index; a `usize` has 64 bits.
-/

namespace Chronicle.Matcher

/-! ## Checked accesses -/

section Access

variable {α : Type}

def outOfBounds : MatcherFailure := .panicked "index out of bounds"

/-- A walk along the lists that has made more steps than there are nodes. -/
def endlessWalk : MatcherFailure := .panicked "endless walk"

/-- `cells[i]` -/
def readAt (cells : Array α) (i : Nat) : MatcherResult α :=
  match cells[i]? with
  | some value => .ok value
  | none => .error outOfBounds

/-- `cells[i] = value` -/
def writeAt (cells : Array α) (i : Nat) (value : α) : MatcherResult (Array α) :=
  if i < cells.size then .ok (cells.setIfInBounds i value) else .error outOfBounds

/-- `items[from..]` -/
def sliceFrom (items : List α) (first : Nat) : MatcherResult (List α) :=
  if first ≤ items.length then .ok (items.drop first) else .error outOfBounds

/-- `items.remove(position)` -/
def removeAt (items : List α) (position : Nat) : MatcherResult (α × List α) :=
  match items[position]? with
  | some item => .ok (item, items.eraseIdx position)
  | none => .error outOfBounds

/-- `code as usize` -/
def asUsize (code : Int) : Nat :=
  if code < 0 then (18446744073709551616 + code).toNat else code.toNat

end Access

/-! ## Checked walks -/

section Walks

variable (prev : Array Int)

/-- The loop of `prune_global_head` and `prune_app_head`. -/
def checkedPruneHead (marks : Array Bool) : Nat → Int → MatcherResult Int
  | 0, _ => .error endlessWalk
  | steps + 1, head => do
      if 0 ≤ head then
        if ← readAt marks head.toNat then
          checkedPruneHead marks steps (← readAt prev head.toNat)
        else pure head
      else pure head

variable (valid wanted : Nat → MatcherResult Bool)

/-- The loop of `latest_matching_global`. -/
def checkedFind (marks : Array Bool) : Nat → Int → MatcherResult (Option Nat)
  | 0, _ => .error endlessWalk
  | steps + 1, cursor => do
      if cursor < 0 then pure none
      else
        let next ← readAt prev cursor.toNat
        if ← readAt marks cursor.toNat then checkedFind marks steps next
        else if !(← valid cursor.toNat) then pure none
        else if ← wanted cursor.toNat then pure (some cursor.toNat)
        else checkedFind marks steps next

/-- The loop of `close_same_app_matches` and `close_matching_global`. -/
def checkedCollect : Nat → Int → Array Bool → MatcherResult (Array Bool × List Nat)
  | 0, _, _ => .error endlessWalk
  | steps + 1, cursor, marks => do
      if cursor < 0 then pure (marks, [])
      else
        let next ← readAt prev cursor.toNat
        if ← readAt marks cursor.toNat then checkedCollect steps next marks
        else if !(← valid cursor.toNat) then pure (marks, [])
        else if ← wanted cursor.toNat then
          let (updated, found) ←
            checkedCollect steps next (← writeAt marks cursor.toNat true)
          pure (updated, cursor.toNat :: found)
        else checkedCollect steps next marks

/-- The loop of `finish_open_starts`. -/
def checkedSweep (accepted : Nat → MatcherResult Bool) :
    Nat → Int → Array Bool → MatcherResult (Array Bool × List Nat × List Nat)
  | 0, _, _ => .error endlessWalk
  | steps + 1, cursor, marks => do
      if cursor < 0 then pure (marks, [], [])
      else
        let next ← readAt prev cursor.toNat
        if ← readAt marks cursor.toNat then checkedSweep accepted steps next marks
        else if ← accepted cursor.toNat then
          let (updated, found, left) ←
            checkedSweep accepted steps next (← writeAt marks cursor.toNat true)
          pure (updated, cursor.toNat :: found, left)
        else
          let (updated, found, left) ← checkedSweep accepted steps next marks
          pure (updated, found, cursor.toNat :: left)

end Walks

/-! ## Checked lists of open starts -/

namespace SparseOpenStarts

variable (s : SparseOpenStarts)

/-- One step more than there are nodes. -/
def steps : Nat := s.closed.size + 1

/-- `open` -/
def checkedOpen (index : Nat) (appCode : Int) : MatcherResult SparseOpenStarts := do
  let slot := asUsize appCode
  let globalPrev ← writeAt s.globalPrev index s.globalHead
  let appPrev ← writeAt s.appPrev index (← readAt s.appHeads slot)
  let appHeads ← writeAt s.appHeads slot (asI32 index)
  pure { s with
    globalPrev := globalPrev
    appPrev := appPrev
    globalHead := asI32 index
    appHeads := appHeads }

/-- `close` -/
def checkedClose (index : Nat) : MatcherResult SparseOpenStarts := do
  pure { s with closed := ← writeAt s.closed index true }

/-- `prune_global_head` -/
def checkedPruneGlobal : MatcherResult SparseOpenStarts := do
  pure { s with globalHead := ← checkedPruneHead s.globalPrev s.closed s.steps s.globalHead }

/-- `prune_app_head` -/
def checkedPruneApp (appCode : Int) : MatcherResult SparseOpenStarts := do
  let slot := asUsize appCode
  let head ← checkedPruneHead s.appPrev s.closed s.steps (← readAt s.appHeads slot)
  pure { s with appHeads := ← writeAt s.appHeads slot head }

/-- `latest_same_app` -/
def checkedLatestSameApp (appCode : Int) (valid : Nat → MatcherResult Bool) :
    MatcherResult (SparseOpenStarts × Option Nat) := do
  let pruned ← s.checkedPruneApp appCode
  let cursor ← readAt pruned.appHeads (asUsize appCode)
  if cursor < 0 then pure (pruned, none)
  else if !(← valid cursor.toNat) then pure (pruned, none)
  else pure (pruned, some cursor.toNat)

/-- `latest_matching_global` -/
def checkedLatestMatchingGlobal (valid predicate : Nat → MatcherResult Bool) :
    MatcherResult (SparseOpenStarts × Option Nat) := do
  let pruned ← s.checkedPruneGlobal
  pure (pruned, ← checkedFind pruned.globalPrev valid predicate pruned.closed pruned.steps
    pruned.globalHead)

/-- `close_same_app_matches` -/
def checkedCloseSameAppMatches (appCode : Int) (valid : Nat → MatcherResult Bool) :
    MatcherResult (SparseOpenStarts × List Nat) := do
  let pruned ← s.checkedPruneApp appCode
  let (closed, found) ← checkedCollect pruned.appPrev valid (fun _ => pure true) pruned.steps
    (← readAt pruned.appHeads (asUsize appCode)) pruned.closed
  let updated ← { pruned with closed := closed : SparseOpenStarts }.checkedPruneApp appCode
  pure (← updated.checkedPruneGlobal, found)

/-- `close_matching_global` -/
def checkedCloseMatchingGlobal (valid predicate : Nat → MatcherResult Bool) :
    MatcherResult (SparseOpenStarts × List Nat) := do
  let pruned ← s.checkedPruneGlobal
  let (closed, found) ← checkedCollect pruned.globalPrev valid predicate pruned.steps
    pruned.globalHead pruned.closed
  pure (← { pruned with closed := closed : SparseOpenStarts }.checkedPruneGlobal, found)

/-- `finish_open_starts` -/
def checkedFinish (accepted : Nat → MatcherResult Bool) :
    MatcherResult (SparseOpenStarts × List Nat × List Nat) := do
  let pruned ← s.checkedPruneGlobal
  let (closed, stops, missing) ← checkedSweep pruned.globalPrev accepted pruned.steps
    pruned.globalHead pruned.closed
  pure ({ pruned with closed := closed }, stops, missing)

end SparseOpenStarts

/-! ## One stop event -/

section Stops

variable (a : EventArrays) (options : MatchOptions)

/-- `sparse_stop_mode` -/
def checkedStopMode (index : Nat) : MatcherResult (Option SparseStopMode) := do
  let hasSameStop ← readAt a.sameStop index
  let hasOtherStop ← readAt a.otherStop index
  let hasFallbackStop := (← readAt a.stopped index) && options.useActivityStoppedAsFallback
  pure (if hasSameStop && hasOtherStop then some .anyApp
    else if hasSameStop then some .sameApp
    else if hasOtherStop then some .otherApp
    else if hasFallbackStop then some .fallbackSameApp
    else none)

/-- The duration test of a start, for a stop at the instant. -/
def checkedValid (mode : SparseStopMode) (stopTimestampNs : Int) (startIndex : Nat) :
    MatcherResult Bool := do
  pure (isValidDuration (← readAt a.timestampNs startIndex) stopTimestampNs
    (sparseStopEnforcesThreshold options mode) options.longDurationThresholdNs)

/-- The starts an `OtherApp` stop may close. -/
def checkedOtherApp (currentApp : Int) (startIndex : Nat) : MatcherResult Bool := do
  if (← readAt a.appCodes startIndex) != currentApp then
    pure !(← readAt a.background startIndex)
  else pure false

/-- The starts an `AnyApp` stop may close. -/
def checkedAnyApp (currentApp : Int) (startIndex : Nat) : MatcherResult Bool := do
  if (← readAt a.appCodes startIndex) == currentApp then pure true
  else pure !(← readAt a.background startIndex)

/-- The starts one stop event closes when stop events may be reused, newest first. -/
def checkedCloseMatches (mode : SparseStopMode) (index : Nat) (openStarts : SparseOpenStarts) :
    MatcherResult (SparseOpenStarts × List Nat) := do
  let currentApp ← readAt a.appCodes index
  let valid := checkedValid a options mode (← readAt a.timestampNs index)
  match mode with
  | .sameApp | .fallbackSameApp => openStarts.checkedCloseSameAppMatches currentApp valid
  | .otherApp => openStarts.checkedCloseMatchingGlobal valid (checkedOtherApp a currentApp)
  | .anyApp => openStarts.checkedCloseMatchingGlobal valid (checkedAnyApp a currentApp)

/-- The one start a stop event matches when stop events are not reused. -/
def checkedLatestMatch (mode : SparseStopMode) (index : Nat) (openStarts : SparseOpenStarts) :
    MatcherResult (SparseOpenStarts × Option Nat) := do
  let currentApp ← readAt a.appCodes index
  let valid := checkedValid a options mode (← readAt a.timestampNs index)
  match mode with
  | .sameApp | .fallbackSameApp => openStarts.checkedLatestSameApp currentApp valid
  | .otherApp => openStarts.checkedLatestMatchingGlobal valid (checkedOtherApp a currentApp)
  | .anyApp => openStarts.checkedLatestMatchingGlobal valid (checkedAnyApp a currentApp)

/-- `legacy_close_reason` -/
def checkedCloseReason (stopIndex startIndex : Nat) : MatcherResult EpisodeCloseReason := do
  let sameApp := (← readAt a.appCodes startIndex) == (← readAt a.appCodes stopIndex)
  if (← readAt a.sameStop stopIndex) && sameApp then pure .sameAppStop
  else if (← readAt a.otherStop stopIndex) && !sameApp then
    if ← readAt a.background startIndex then pure .activityStoppedFallback
    else pure .otherAppStop
  else pure .activityStoppedFallback

/-- `classify_new_closes` -/
def checkedClassify (stopReasons : List EpisodeCloseReason) (stopStartIndices : List Nat)
    (stopIndex : Nat) : MatcherResult (List EpisodeCloseReason) := do
  let added ← (← sliceFrom stopStartIndices stopReasons.length).mapM (checkedCloseReason a stopIndex)
  pure (stopReasons ++ added)

/-- Record the starts that one stop event closes, in the order given. -/
def checkedRecordCloses (st : SparseState) (openStarts : SparseOpenStarts) (closed : List Nat)
    (index : Nat) : MatcherResult SparseState := do
  let stopReasons ← checkedClassify a st.stopReasons (st.stopStartIndices ++ closed) index
  pure { st with
    openStarts := openStarts
    stopStartIndices := st.stopStartIndices ++ closed
    stopEventIndices := st.stopEventIndices ++ closed.map fun _ => index
    stopReasons := stopReasons }

/-- Close and record the one matched start, if there is one. -/
def checkedRecordMatch (st : SparseState) (openStarts : SparseOpenStarts) (matched : Option Nat)
    (index : Nat) : MatcherResult SparseState := do
  match matched with
  | some startIndex =>
      checkedRecordCloses a st (← openStarts.checkedClose startIndex) [startIndex] index
  | none => checkedRecordCloses a st openStarts [] index

/-- The stop part of one event. -/
def checkedSparseStop (st : SparseState) (index : Nat) : MatcherResult SparseState := do
  match ← checkedStopMode a options index with
  | none => pure st
  | some mode =>
      if options.allowStopEventReuse then
        let (openStarts, closed) ← checkedCloseMatches a options mode index st.openStarts
        checkedRecordCloses a st openStarts closed index
      else
        let (openStarts, matched) ← checkedLatestMatch a options mode index st.openStarts
        checkedRecordMatch a st openStarts matched index

/-- The opening part of one event. -/
def checkedSparseOpen (opener : Array Bool) (st : SparseState) (index : Nat) :
    MatcherResult SparseState := do
  if ← readAt opener index then
    let openStarts ← st.openStarts.checkedOpen index (← readAt a.appCodes index)
    pure { st with
      startIndices := st.startIndices ++ [index]
      openStarts := openStarts }
  else pure st

/-- The last event ends the start. -/
def checkedAccepts (lastIndex startIndex : Nat) : MatcherResult Bool := do
  if lastIndex > startIndex then
    pure (isValidDuration (← readAt a.timestampNs startIndex) (← readAt a.timestampNs lastIndex)
      true options.longDurationThresholdNs)
  else pure false

/-- The final sweep of a list-based matcher. -/
def checkedSparseFinish (order : List Nat → List Nat) (st : SparseState) :
    MatcherResult MatchUpdateIndices := do
  if 0 < a.len then
    let lastIndex := a.len - 1
    let (_, stops, missing) ← st.openStarts.checkedFinish (checkedAccepts a options lastIndex)
    let stopStartIndices := st.stopStartIndices ++ order stops
    pure { startIndices := st.startIndices
           stopStartIndices := stopStartIndices
           stopEventIndices := st.stopEventIndices ++ (order stops).map fun _ => lastIndex
           missingIndices := order missing
           stopReasons := resize st.stopReasons stopStartIndices.length .endOfStream
           missingReasons := resize [] (order missing).length .unobserved
           stopTimestampsNs := List.replicate stopStartIndices.length none }
  else pure (sparseFinish a options order st)

end Stops

/-- `match_app_usage_update_indices_core` -/
def checkedUpdateIndices (a : MatchArrays) (options : MatchOptions) :
    MatcherResult MatchUpdateIndices := do
  let len ← validateLengths a.toEventArrays a.resumed
  let openStarts ← SparseOpenStarts.new a.toEventArrays
  let st ← (List.range len).foldlM
    (fun st index => do
      checkedSparseOpen a.toEventArrays a.resumed
        (← checkedSparseStop a.toEventArrays options st index) index)
    (sparseInit openStarts)
  checkedSparseFinish a.toEventArrays options id st

/-! ## Proximity matching -/

section Proximity

variable (a : OpenerArrays) (options : MatchOptions) (proximityNs : Int)

/-- Whether the native resume follows a same-app stop inside the grace window. -/
def checkedReresumes (re : ReresumeState) (slot index : Nat) : MatcherResult Bool := do
  if ← readAt a.nativeResumed index then
    match ← readAt re.lastEventNs slot with
    | some last =>
        if ← readAt re.lastWasSameStop slot then
          pure (decide ((← readAt a.timestampNs index) - last < proximityNs))
        else pure false
    | none => pure false
  else pure false

/-- Record an opener's re-resume flag and the app's last event. -/
def checkedReresumeStep (re : ReresumeState) (index : Nat) : MatcherResult ReresumeState := do
  let slot := asUsize (← readAt a.appCodes index)
  let isReresume ←
    if ← readAt a.eligibleOpener index then
      writeAt re.isReresume index (← checkedReresumes a proximityNs re slot index)
    else pure re.isReresume
  let lastEventNs ← writeAt re.lastEventNs slot (some (← readAt a.timestampNs index))
  let lastWasSameStop ← writeAt re.lastWasSameStop slot (← readAt a.sameStop index)
  pure {
    isReresume := isReresume
    lastEventNs := lastEventNs
    lastWasSameStop := lastWasSameStop }

/-- A re-resumed start this close to its stop is left open. -/
def checkedInsideGrace (re : ReresumeState) (stopIndex startIndex : Nat) : MatcherResult Bool := do
  if ← readAt re.isReresume startIndex then
    pure (decide ((← readAt a.timestampNs stopIndex) - (← readAt a.timestampNs startIndex) <
      proximityNs))
  else pure false

/-- The candidate, unless it is left open by the grace. -/
def checkedOutsideGrace (re : ReresumeState) (stopIndex : Nat) :
    Option Nat → MatcherResult (Option Nat)
  | none => pure none
  | some startIndex => do
      if ← checkedInsideGrace a proximityNs re stopIndex startIndex then pure none
      else pure (some startIndex)

/-- The stop part of one event of the sorted matcher. -/
def checkedSortedStop (re : ReresumeState) (st : SparseState) (index : Nat) :
    MatcherResult SparseState := do
  match ← checkedStopMode a.toEventArrays options index with
  | none => pure st
  | some mode =>
      if options.allowStopEventReuse then
        let (openStarts, closed) ←
          checkedCloseMatches a.toEventArrays options mode index st.openStarts
        checkedRecordCloses a.toEventArrays st openStarts closed.reverse index
      else
        let (openStarts, candidate) ←
          checkedLatestMatch a.toEventArrays options mode index st.openStarts
        let matched ←
          if mode = .fallbackSameApp then checkedOutsideGrace a proximityNs re index candidate
          else pure candidate
        checkedRecordMatch a.toEventArrays st openStarts matched index

/-- One event of the sorted matcher. -/
def checkedSortedStep (st : ReresumeState × SparseState) (index : Nat) :
    MatcherResult (ReresumeState × SparseState) := do
  let stopped ← checkedSortedStop a options proximityNs st.1 st.2 index
  let re ← checkedReresumeStep a proximityNs st.1 index
  pure (re, ← checkedSparseOpen a.toEventArrays a.eligibleOpener stopped index)

/-- `match_sorted_app_usage_update_indices_with_proximity` -/
def checkedSorted : MatcherResult MatchUpdateIndices := do
  -- `max_app_code as usize + 1` wraps to no slots at -1; below it the vector cannot exist
  if a.maxAppCode < -1 then throw (.panicked "capacity overflow")
  let openStarts ← SparseOpenStarts.new a.toEventArrays
  let st ← (List.range a.len).foldlM (checkedSortedStep a options proximityNs)
    (reresumeInit a, sparseInit openStarts)
  checkedSparseFinish a.toEventArrays options List.reverse st.2

/-- `other_stop[stop_index] && !same_app && !background[start_index]` -/
def checkedOtherCompatible (a : EventArrays) (otherStop sameApp : Bool) (startIndex : Nat) :
    MatcherResult Bool := do
  if otherStop && !sameApp then pure !(← readAt a.background startIndex) else pure false

/-- `is_compatible_open_start_for_stop` -/
def checkedCompatible (a : EventArrays) (stopIndex startIndex : Nat) : MatcherResult Bool := do
  let sameApp := (← readAt a.appCodes startIndex) == (← readAt a.appCodes stopIndex)
  let sameStop ← readAt a.sameStop stopIndex
  let otherStop ← readAt a.otherStop stopIndex
  let fallbackStop := (← readAt a.stopped stopIndex) && options.useActivityStoppedAsFallback
  let otherApp ← checkedOtherCompatible a otherStop sameApp startIndex
  let fallback := !(sameStop || otherStop) && fallbackStop && sameApp
  if !(sameStop && sameApp || otherApp || fallback) then pure false
  else
    pure (isValidDuration (← readAt a.timestampNs startIndex) (← readAt a.timestampNs stopIndex)
      (!fallback || options.applyThresholdToFallback) options.longDurationThresholdNs)

/-- `close_reused_starts`: the compatible open starts, and the ones that stay open. -/
def checkedCloseReused (a : EventArrays) (stopIndex : Nat) :
    List Nat → MatcherResult (List Nat × List Nat)
  | [] => pure ([], [])
  | startIndex :: rest => do
      let compatible ← checkedCompatible options a stopIndex startIndex
      let (closed, kept) ← checkedCloseReused a stopIndex rest
      pure (if compatible then (startIndex :: closed, kept) else (closed, startIndex :: kept))

/-- Record the starts that one stop event closes and the ones that stay open. -/
def checkedLegacyRecord (a : EventArrays) (st : LegacyState) (closed kept : List Nat)
    (index : Nat) : MatcherResult LegacyState := do
  let reasons ← closed.mapM (checkedCloseReason a index)
  pure { st with
    openStartIndices := kept
    stopStartIndices := st.stopStartIndices ++ closed
    stopEventIndices := st.stopEventIndices ++ closed.map fun _ => index
    stopReasons := st.stopReasons ++ reasons }

/-- The legacy scan over the open starts, newest first, with their positions. -/
def checkedMatchedPosition (re : ReresumeState) (index : Nat) :
    List (Nat × Nat) → MatcherResult (Option Nat)
  | [] => pure none
  | (startIndex, position) :: older => do
      let sameApp := (← readAt a.appCodes startIndex) == (← readAt a.appCodes index)
      let sameStop ← readAt a.sameStop index
      let otherStop ← readAt a.otherStop index
      let fallbackStop := (← readAt a.stopped index) && options.useActivityStoppedAsFallback
      let otherApp ← checkedOtherCompatible a.toEventArrays otherStop sameApp startIndex
      let fallback := !(sameStop || otherStop) && fallbackStop && sameApp
      if !(sameStop && sameApp || otherApp || fallback) then checkedMatchedPosition re index older
      else if !isValidDuration (← readAt a.timestampNs startIndex) (← readAt a.timestampNs index)
          (!fallback || options.applyThresholdToFallback) options.longDurationThresholdNs then
        checkedMatchedPosition re index older
      else
        if fallback then
          if ← checkedInsideGrace a proximityNs re index startIndex then pure none
          else pure (some position)
        else pure (some position)

/-- The stop part of one event of the legacy matcher. -/
def checkedLegacyStop (re : ReresumeState) (st : LegacyState) (index : Nat) :
    MatcherResult LegacyState := do
  let isNormalStop := (← readAt a.sameStop index) || (← readAt a.otherStop index)
  let isFallbackStop := (← readAt a.stopped index) && options.useActivityStoppedAsFallback
  if options.allowStopEventReuse && (isNormalStop || isFallbackStop) then
    let (closed, kept) ← checkedCloseReused options a.toEventArrays index st.openStartIndices
    checkedLegacyRecord a.toEventArrays st closed kept index
  else if isNormalStop || isFallbackStop then
    match ← checkedMatchedPosition a options proximityNs re index
        st.openStartIndices.zipIdx.reverse with
    | some position =>
        let (startIndex, kept) ← removeAt st.openStartIndices position
        checkedLegacyRecord a.toEventArrays st [startIndex] kept index
    | none => pure st
  else pure st

/-- One event of the legacy matcher. -/
def checkedLegacyStep (st : ReresumeState × LegacyState) (index : Nat) :
    MatcherResult (ReresumeState × LegacyState) := do
  let stopped ← checkedLegacyStop a options proximityNs st.1 st.2 index
  let re ← checkedReresumeStep a proximityNs st.1 index
  let opens ← readAt a.eligibleOpener index
  pure (re, legacyOpen (fun _ => opens) stopped index)

/-- The legacy matcher's end of stream: which open starts the last event closes. -/
def checkedSettle (a : EventArrays) (lastIndex : Nat) :
    List Nat → MatcherResult (List Nat × List Nat)
  | [] => pure ([], [])
  | startIndex :: rest => do
      let accepted ← checkedAccepts a options lastIndex startIndex
      let (stops, missing) ← checkedSettle a lastIndex rest
      pure (if accepted then (startIndex :: stops, missing) else (stops, startIndex :: missing))

/-- The legacy matcher's end of stream: its open starts are closed or reported missing. -/
def checkedLegacyFinish (st : LegacyState) : MatcherResult MatchUpdateIndices := do
  if 0 < a.len then
    let lastIndex := a.len - 1
    let (stops, missing) ← checkedSettle options a.toEventArrays lastIndex st.openStartIndices
    pure { startIndices := st.startIndices
           stopStartIndices := st.stopStartIndices ++ stops
           stopEventIndices := st.stopEventIndices ++ stops.map fun _ => lastIndex
           missingIndices := missing
           stopReasons := st.stopReasons ++ stops.map fun _ => .endOfStream
           missingReasons := missing.map fun _ => .unobserved
           stopTimestampsNs := List.replicate (st.stopStartIndices ++ stops).length none }
  else pure (legacyFinish a options st)

/-- `match_legacy_app_usage_update_indices_with_proximity` -/
def checkedLegacy : MatcherResult MatchUpdateIndices := do
  if a.hasNegativeCode then throw negativeCodeError
  let st ← (List.range a.len).foldlM (checkedLegacyStep a options proximityNs)
    (reresumeInit a, legacyInit)
  checkedLegacyFinish a options st.2

/-- `match_app_usage_update_indices_with_proximity_openers_core` -/
def checkedOpenersCore : MatcherResult MatchUpdateIndices := do
  let _ ← validateLengths a.toEventArrays a.nativeResumed
  if a.eligibleOpener.size ≠ a.len then throw lengthError
  if proximityNs < 0 then throw (.error "proximity_ns must be non-negative")
  if proximityNs = 0 then checkedUpdateIndices { a with resumed := a.eligibleOpener } options
  else if timestampsSorted a.timestampNs then checkedSorted a options proximityNs
  else checkedLegacy a options proximityNs

end Proximity

end Chronicle.Matcher
