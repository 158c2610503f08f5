/-!
# Matcher inputs, outputs and stop classification

The parallel event arrays every matcher reads, the index lists it reports, and the tests that
decide whether a stop event may close an open start. Timestamps and durations are exact integers:
the code forms every difference in `i128`, where no difference of two `i64` values overflows.
-/

namespace Chronicle.Matcher

/-- Why an app-usage episode ended. -/
inductive EpisodeCloseReason where
  | sameAppStop
  | otherAppStop
  | activityStoppedFallback
  | endOfStream
  | unobserved
  | screenNonInteractive
  | samePackageBackgrounded
  | foregroundHandover
  | gesisOriginalStop
  | gesisNextGlobalEvent
  | gesisTimeout
  | eyesDeviceStateBoundary
  | eyesTripletClose
  | eyesNextBlockAssumed
  | draxlerInactivityTimeout
  | screenLockedPastTimeout
deriving DecidableEq, Repr

/-- How a matcher call ends early: the `Err` it returns, or a panic. -/
inductive MatcherFailure where
  | error (message : String)
  | panicked (message : String)
deriving DecidableEq, Repr

/-- The result of a matcher call. -/
abbrev MatcherResult (α : Type) := Except MatcherFailure α

/-- The switches of the fused rule. -/
structure MatchOptions where
  allowStopEventReuse : Bool
  useActivityStoppedAsFallback : Bool
  applyThresholdToFallback : Bool
  longDurationThresholdNs : Int
deriving DecidableEq, Repr

/-- The dense result: one cell for each event. -/
structure MatchOutput where
  startNs : Array Int
  stopNs : Array Int
  missing : Array Bool
deriving DecidableEq, Repr

/-- The sparse result: the indices that changed, with parallel reasons and end instants. -/
structure MatchUpdateIndices where
  startIndices : List Nat
  stopStartIndices : List Nat
  stopEventIndices : List Nat
  missingIndices : List Nat
  stopReasons : List EpisodeCloseReason
  missingReasons : List EpisodeCloseReason
  stopTimestampsNs : List (Option Int)
deriving DecidableEq, Repr

/-- The event arrays that every matching rule reads. -/
structure EventArrays where
  appCodes : Array Int
  timestampNs : Array Int
  sameStop : Array Bool
  otherStop : Array Bool
  stopped : Array Bool
  background : Array Bool
deriving DecidableEq, Repr

/-- The arrays of `match_app_usage_core` and `match_app_usage_update_indices_core`. -/
structure MatchArrays extends EventArrays where
  resumed : Array Bool
deriving DecidableEq, Repr

/-- The arrays of the proximity matchers, where the rows that may open an episode are separate
from the native resume signal. -/
structure OpenerArrays extends EventArrays where
  eligibleOpener : Array Bool
  nativeResumed : Array Bool
deriving DecidableEq, Repr

namespace EventArrays

variable (a : EventArrays)

/-- The number of events. -/
def len : Nat := a.appCodes.size

/-- `app_codes[i]`. -/
def appCode (i : Nat) : Int := a.appCodes.getD i 0

/-- `timestamp_ns[i]`. -/
def timestamp (i : Nat) : Int := a.timestampNs.getD i 0

/-- `same_stop[i]`. -/
def isSameStop (i : Nat) : Bool := a.sameStop.getD i false

/-- `other_stop[i]`. -/
def isOtherStop (i : Nat) : Bool := a.otherStop.getD i false

/-- `stopped[i]`. -/
def isStopped (i : Nat) : Bool := a.stopped.getD i false

/-- `background[i]`. -/
def isBackground (i : Nat) : Bool := a.background.getD i false

/-- No app code is negative. -/
def NonnegativeCodes : Prop := ∀ i < a.len, 0 ≤ a.appCode i

/-- Timestamps never decrease from one event to a later one. -/
def SortedTimestamps : Prop := ∀ i j, i ≤ j → j < a.len → a.timestamp i ≤ a.timestamp j

/-- `app_codes.iter().copied().max().unwrap_or(0)`. -/
def maxAppCode : Int := (a.appCodes.toList.max?).getD 0

/-- Whether some app code is negative, which the sparse matchers refuse. -/
def hasNegativeCode : Bool := a.appCodes.any (· < 0)

end EventArrays

/-- `resumed[i]`. -/
def MatchArrays.isResumed (a : MatchArrays) (i : Nat) : Bool := a.resumed.getD i false

/-- `eligible_opener[i]`. -/
def OpenerArrays.isEligible (a : OpenerArrays) (i : Nat) : Bool := a.eligibleOpener.getD i false

/-- `native_resumed[i]`. -/
def OpenerArrays.isNativeResumed (a : OpenerArrays) (i : Nat) : Bool :=
  a.nativeResumed.getD i false

/-- The error every matcher returns for arrays of different lengths. -/
def lengthError : MatcherFailure := .error "all input arrays must have the same length"

/-- The error of the list-based matchers for a negative app code. -/
def negativeCodeError : MatcherFailure :=
  .error "app code arrays must contain only non-negative values"

/-- Every array has as many cells as there are app codes. -/
def EventArrays.SameLengths (a : EventArrays) (resumed : Array Bool) : Prop :=
  a.timestampNs.size = a.len ∧ resumed.size = a.len ∧ a.sameStop.size = a.len ∧
    a.otherStop.size = a.len ∧ a.stopped.size = a.len ∧ a.background.size = a.len

instance (a : EventArrays) (resumed : Array Bool) : Decidable (a.SameLengths resumed) :=
  inferInstanceAs (Decidable (_ ∧ _))

/-- `validate_lengths`. -/
def validateLengths (a : EventArrays) (resumed : Array Bool) : MatcherResult Nat :=
  if a.SameLengths resumed then .ok a.len else .error lengthError

/-- A stop may not precede its start and, when the threshold is enforced, may not be later than
the threshold allows. -/
def isValidDuration (startNs stopNs : Int) (enforceThreshold : Bool) (thresholdNs : Int) : Bool :=
  let durationNs := stopNs - startNs
  if durationNs < 0 then false else !enforceThreshold || decide (durationNs ≤ thresholdNs)

section Compatibility

variable (a : EventArrays) (options : MatchOptions)

/-- The stop event belongs to the start's own app. -/
def sameAppCompatible (stopIndex startIndex : Nat) : Bool :=
  a.isSameStop stopIndex && a.appCode startIndex == a.appCode stopIndex

/-- The stop event belongs to another app. A background app is never closed by another app. -/
def otherAppCompatible (stopIndex startIndex : Nat) : Bool :=
  a.isOtherStop stopIndex && a.appCode startIndex != a.appCode stopIndex &&
    !a.isBackground startIndex

/-- The event is a stop of one of the two ordinary kinds. -/
def isNormalStop (index : Nat) : Bool := a.isSameStop index || a.isOtherStop index

/-- The event is an `Activity Stopped` that the options accept as a stand-in. -/
def isFallbackStop (index : Nat) : Bool :=
  a.isStopped index && options.useActivityStoppedAsFallback

/-- The event stands in for the missing ordinary stop of the start's own app. -/
def fallbackCompatible (stopIndex startIndex : Nat) : Bool :=
  !isNormalStop a stopIndex && isFallbackStop a options stopIndex &&
    a.appCode startIndex == a.appCode stopIndex

/-- `is_compatible_open_start_for_stop`. -/
def isCompatibleOpenStartForStop (stopIndex startIndex : Nat) : Bool :=
  if !(sameAppCompatible a stopIndex startIndex || otherAppCompatible a stopIndex startIndex ||
      fallbackCompatible a options stopIndex startIndex) then false
  else
    let enforceThreshold :=
      !fallbackCompatible a options stopIndex startIndex || options.applyThresholdToFallback
    isValidDuration (a.timestamp startIndex) (a.timestamp stopIndex) enforceThreshold
      options.longDurationThresholdNs

/-- Which compatibility test let `stopIndex` close `startIndex`. -/
def legacyCloseReason (stopIndex startIndex : Nat) : EpisodeCloseReason :=
  let sameApp := a.appCode startIndex == a.appCode stopIndex
  if a.isSameStop stopIndex && sameApp then .sameAppStop
  else if a.isOtherStop stopIndex && !sameApp && !a.isBackground startIndex then .otherAppStop
  else .activityStoppedFallback

/-- How the list-based matchers search the open starts for one stop event. -/
inductive SparseStopMode where
  | sameApp
  | otherApp
  | anyApp
  | fallbackSameApp
deriving DecidableEq, Repr

/-- `sparse_stop_mode`. -/
def sparseStopMode (index : Nat) : Option SparseStopMode :=
  if a.isSameStop index && a.isOtherStop index then some .anyApp
  else if a.isSameStop index then some .sameApp
  else if a.isOtherStop index then some .otherApp
  else if isFallbackStop a options index then some .fallbackSameApp
  else none

/-- `sparse_stop_enforces_threshold`. -/
def sparseStopEnforcesThreshold (mode : SparseStopMode) : Bool :=
  mode != .fallbackSameApp || options.applyThresholdToFallback

/-- Classify every close appended since `stop_reasons` was last filled. -/
def classifyNewCloses (stopReasons : List EpisodeCloseReason) (stopStartIndices : List Nat)
    (stopIndex : Nat) : List EpisodeCloseReason :=
  stopReasons ++ (stopStartIndices.drop stopReasons.length).map (legacyCloseReason a stopIndex)

end Compatibility

/-- `vec.resize(len, value)`. -/
def resize {α : Type} (items : List α) (len : Nat) (value : α) : List α :=
  items.take len ++ List.replicate (len - items.length) value

end Chronicle.Matcher
