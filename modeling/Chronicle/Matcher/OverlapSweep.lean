import Mathlib.Data.Finset.Max
import Chronicle.Library.StableSort
import Chronicle.Matcher.Basic

/-!
# The overlap sweep

`split_overlapping_sessions` sweeps the session bounds in ascending order. At every bound it closes
the sessions that stop, opens those that start, and records the change of layer of the session that
was the newest and of the one that is now. Only comparisons of timestamps occur.
-/

namespace Chronicle.Matcher

open Chronicle.Library.StableSort

/-- Which layer a piece of a session belongs to. -/
inductive UsageLayer where
  | primary
  | secondary
deriving DecidableEq, Repr

/-- One piece of one layer of a session. -/
structure LayeredSession where
  sessionIndex : Nat
  startNs : Int
  stopNs : Int
  layer : UsageLayer
deriving DecidableEq, Repr

/-- The state of the sweep. The two cursors into the sorted index lists are kept as the entries
still ahead of them, and the vector of segments as a function of the index. -/
structure Sweep where
  pendingStarts : List Nat
  pendingStops : List Nat
  openSessions : Finset (Int ×ₗ Nat)
  activeSegments : Nat → Option (Int × UsageLayer)
  out : List LayeredSession

/-- The open session with the greatest key. -/
def Sweep.newest (s : Sweep) : Option Nat :=
  match s.openSessions.max with
  | ⊥ => none
  | (key : Int ×ₗ Nat) => some (ofLex key).2

/-- Emit a piece unless it is empty. -/
def emitPiece (sessionIndex : Nat) (timestamp : Int) (segment : Int × UsageLayer) :
    List LayeredSession :=
  if timestamp > segment.1 then [⟨sessionIndex, segment.1, timestamp, segment.2⟩] else []

/-- The closure `transition`: a session with a segment of the other layer begins a new one. -/
def Sweep.transition (sessionIndex : Nat) (nextLayer : UsageLayer) (timestamp : Int) (s : Sweep) :
    Sweep :=
  match s.activeSegments sessionIndex with
  | none => s
  | some segment =>
      if segment.2 = nextLayer then s
      else
        { s with
          out := s.out ++ emitPiece sessionIndex timestamp segment
          activeSegments :=
            Function.update s.activeSegments sessionIndex (some (timestamp, nextLayer)) }

section Bounds

variable (starts stops : Nat → Int)

/-- One pass of the first inner loop: the session stops. -/
def Sweep.closeSession (timestamp : Int) (i : Nat) (s : Sweep) : Sweep :=
  { s with
    out := s.out ++ ((s.activeSegments i).map (emitPiece i timestamp)).getD []
    activeSegments := Function.update s.activeSegments i none
    openSessions := s.openSessions.erase (toLex (starts i, i)) }

/-- The first inner loop: close every session that has stopped by the timestamp. -/
def Sweep.closeStopped (timestamp : Int) : List Nat → Sweep → Sweep
  | [], s => { s with pendingStops := [] }
  | i :: rest, s =>
      if stops i ≤ timestamp then closeStopped timestamp rest (s.closeSession starts timestamp i)
      else { s with pendingStops := i :: rest }

/-- The second inner loop: open every session that has started, and list the opened ones. -/
def Sweep.openStarted (timestamp : Int) : List Nat → Sweep → List Nat → Sweep × List Nat
  | [], s, startedNow => ({ s with pendingStarts := [] }, startedNow)
  | i :: rest, s, startedNow =>
      if starts i ≤ timestamp then
        if stops i > timestamp then
          openStarted timestamp rest
            { s with openSessions := insert (toLex (starts i, i)) s.openSessions }
            (startedNow ++ [i])
        else openStarted timestamp rest s startedNow
      else ({ s with pendingStarts := i :: rest }, startedNow)

/-- The layer changes when the newest session changes. -/
def Sweep.changeNewest (timestamp : Int) (previous current : Option Nat) (s : Sweep) : Sweep :=
  if previous ≠ current then
    let s := match previous with
      | some i => s.transition i .secondary timestamp
      | none => s
    match current with
    | some i => s.transition i .primary timestamp
    | none => s
  else s

/-- The last inner loop: the opened sessions begin their first segments. -/
def Sweep.beginSegments (timestamp : Int) (current : Option Nat) (startedNow : List Nat)
    (s : Sweep) : Sweep :=
  startedNow.foldl (fun s i =>
    { s with
      activeSegments := Function.update s.activeSegments i
        (some (timestamp, if some i = current then .primary else .secondary)) }) s

/-- The next bound ahead of either cursor. -/
def Sweep.nextTimestamp (s : Sweep) : Option Int :=
  match s.pendingStarts.head?, s.pendingStops.head? with
  | some i, some j => some (min (starts i) (stops j))
  | some i, none => some (starts i)
  | none, some j => some (stops j)
  | none, none => none

/-- One pass of the outer loop. -/
def Sweep.step (timestamp : Int) (s : Sweep) : Sweep :=
  let previous := s.newest
  let s := s.closeStopped starts stops timestamp s.pendingStops
  let (s, startedNow) := s.openStarted starts stops timestamp s.pendingStarts []
  let current := s.newest
  (s.changeNewest timestamp previous current).beginSegments timestamp current startedNow

/-- The outer loop, one pass for each unit of fuel. -/
def Sweep.run : Nat → Sweep → Sweep
  | 0, s => s
  | fuel + 1, s =>
      match s.nextTimestamp starts stops with
      | none => s
      | some timestamp => run fuel (s.step starts stops timestamp)

/-- The state before the first pass. -/
def Sweep.initial (n : Nat) : Sweep where
  pendingStarts := sortByKey (fun i => toLex (starts i, i)) (List.range n)
  pendingStops := sortByKey (fun i => toLex (stops i, i)) (List.range n)
  openSessions := ∅
  activeSegments := fun _ => none
  out := []

/-- The rows of the sessions without length. -/
def zeroWidthRows (n : Nat) : List LayeredSession :=
  (List.range n).filterMap fun i =>
    if starts i = stops i then some ⟨i, starts i, stops i, .primary⟩ else none

/-- The rows before the final sort: each pass consumes a bound, so `2 * n` passes suffice. -/
def sweepRows (n : Nat) : List LayeredSession :=
  ((Sweep.initial starts stops n).run starts stops (2 * n)).out ++ zeroWidthRows starts stops n

end Bounds

/-- The key the output is sorted by. -/
def LayeredSession.key (row : LayeredSession) : Nat ×ₗ Int := toLex (row.sessionIndex, row.startNs)

/-- `split_overlapping_sessions` -/
def splitOverlappingSessions (starts stops : List Int) : MatcherResult (List LayeredSession) :=
  if starts.length ≠ stops.length then
    .error (.error "starts and stops must have the same length")
  else if (List.range starts.length).any fun i => stops.getD i 0 < starts.getD i 0 then
    .error (.error "stop must be >= start for every session")
  else
    .ok (sortByKey LayeredSession.key
      (sweepRows (fun i => starts.getD i 0) (fun i => stops.getD i 0) starts.length))

end Chronicle.Matcher
