import Mathlib.Data.List.Dedup
import Mathlib.Data.String.Basic
import Chronicle.Library.StableSort
import Chronicle.Pipeline.Row

/-!
# The screen evidence of the raw events

For each participant the instants at which the screen turned on or off, the boots and all event
instants, in order of time. The substrate keeps each as a table in ascending order of participant.
Event tables that only the lineage of credited rows reads are left out.
-/

namespace Chronicle.Credit

open Chronicle.Library.StableSort Chronicle.Pipeline

/-- `SCREEN_START_EVENTS` -/
def screenStartEvents : List String := ["Screen Interactive", "Screen Interactive/Keyguard Shown"]

/-- `SCREEN_STOP_EVENTS` -/
def screenStopEvents : List String :=
  ["Screen Non-Interactive", "Device Screen Off", "Screen Non-Interactive/Keyguard Hidden",
    "Screen Non-Interactive/Manual Hardware Button", "Screen Non-Interactive/Aborted Unlock",
    "Screen Non-Interactive/Idle Timeout"]

/-- What an event says of the screen. -/
inductive ScreenCreditState where
  | on
  | off
deriving DecidableEq, Repr

/-- The interaction types that witness a lit screen. -/
def onWitnesses : List String :=
  ["Screen Interactive", "Screen Interactive/Keyguard Shown", "User Interaction",
    "Shortcut Invocation", "Keyguard Hidden", "User Unlocked", "Chooser Action"]

/-- The interaction types that witness a dark screen. -/
def offWitnesses : List String :=
  ["Screen Non-Interactive", "Screen Non-Interactive/Keyguard Hidden",
    "Screen Non-Interactive/Manual Hardware Button", "Screen Non-Interactive/Aborted Unlock",
    "Screen Non-Interactive/Idle Timeout", "Device Screen Off", "Device Shutdown"]

/-- The type is one that the interaction-type mapping does not know. -/
def isUnmapped (interactionType : String) : Bool :=
  "Unknown importance:".toList.isPrefixOf interactionType.toList ||
    "n: ".toList.isPrefixOf interactionType.toList &&
      (interactionType.toList.drop 3).head?.any Char.isDigit

/-- The error of `screen_witness_state`. -/
def unmappedError : String :=
  "Screen-gated credit: unmapped interaction type in the raw stream — extend the " ++
    "interaction-type mapping before crediting."

/-- `screen_witness_state` -/
def screenWitnessState (interactionType : String) : Except String (Option ScreenCreditState) :=
  let interactionType :=
    if interactionType = "Screen Non-interactive" then "Screen Non-Interactive" else interactionType
  if isUnmapped interactionType then .error unmappedError
  else if interactionType ∈ onWitnesses then .ok (some .on)
  else if interactionType ∈ offWitnesses then .ok (some .off)
  else .ok none

/-- `witness_key`: a blank participant is indexed as "unknown". -/
def witnessKey (participantId : String) : String :=
  if participantId = "" then "unknown" else participantId

/-- An instant at which the screen changed its state. -/
structure ScreenChangePoint where
  timestampNs : Int
  state : ScreenCreditState
  sourceDataRows : SourceDataRows
deriving DecidableEq, Repr

/-- One raw event, as far as the substrate reads it. -/
structure ScreenEvent where
  timestampNs : Int
  interactionType : String
  sourceDataRows : SourceDataRows
deriving DecidableEq, Repr

/-- The error of an unmapped event, with the raw data row it stands in. -/
def locateError (event : ScreenEvent) (error : String) : String :=
  match event.sourceDataRows.iter.head? with
  | some dataRow => error ++ " (data row " ++ toString dataRow ++ ")"
  | none => error

/-- The events that change the state of the screen, `last` being the state before them. -/
def changePoints : Option ScreenCreditState → List ScreenEvent →
    Except String (List ScreenChangePoint)
  | _, [] => .ok []
  | last, event :: events =>
      match screenWitnessState event.interactionType with
      | .error error => .error (locateError event error)
      | .ok none => changePoints last events
      | .ok (some state) =>
          if some state = last then changePoints last events
          else (changePoints (some state) events).map
            (⟨event.timestampNs, state, event.sourceDataRows⟩ :: ·)

/-- The participants of the raw events, in ascending order. -/
def participants (rawEvents : List Row) : List String :=
  sortByKey id (rawEvents.map fun row => witnessKey row.participantId).dedup

/-- The events of one participant, in order of time. -/
def participantEvents (rawEvents : List Row) (participantId : String) : List ScreenEvent :=
  sortByKey ScreenEvent.timestampNs
    ((rawEvents.filter fun row => witnessKey row.participantId = participantId).map fun row =>
      ⟨row.eventTimestampNs, row.interactionType, row.sourceDataRows⟩)

/-- The device reports its screen turning on and off. -/
def isCapable (events : List ScreenEvent) : Bool :=
  events.any (fun event => event.interactionType ∈ screenStartEvents) &&
    events.any fun event => event.interactionType ∈ screenStopEvents

/-- The instants at which the device started. -/
def bootTimes (events : List ScreenEvent) : List Int :=
  (events.filter fun event => event.interactionType = "Device Startup").map ScreenEvent.timestampNs

/-- `ScreenCreditSubstrate` -/
structure ScreenCreditSubstrate where
  points : List (String × List ScreenChangePoint)
  boots : List (String × List Int)
  allTimestamps : List (String × List Int)
  capable : List String
deriving DecidableEq, Repr

/-- The change points of the listed participants. -/
def participantPoints (rawEvents : List Row) :
    List String → Except String (List (String × List ScreenChangePoint))
  | [] => .ok []
  | participantId :: later => do
      let points ← changePoints none (participantEvents rawEvents participantId)
      let rest ← participantPoints rawEvents later
      pure ((participantId, points) :: rest)

/-- `build_screen_credit_substrate` -/
def buildScreenCreditSubstrate (rawEvents : List Row) : Except String ScreenCreditSubstrate := do
  let points ← participantPoints rawEvents (participants rawEvents)
  let events := fun participantId => participantEvents rawEvents participantId
  pure
    { points
      boots := (participants rawEvents).map fun p => (p, bootTimes (events p))
      allTimestamps := (participants rawEvents).map fun p =>
        (p, (events p).map ScreenEvent.timestampNs)
      capable := (participants rawEvents).filter fun p => isCapable (events p) }

/-! ## Order -/

theorem mem_of_lookup_eq_some {α : Type} {table : List (String × α)} {key : String} {value : α}
    (h : table.lookup key = some value) : (key, value) ∈ table := by
  obtain ⟨before, after, rfl, _⟩ := List.lookup_eq_some_iff.mp h
  exact List.mem_append_right before List.mem_cons_self

/-- Change points keep the order of the events. -/
theorem sublist_changePoints {last : Option ScreenCreditState} {events : List ScreenEvent}
    {points : List ScreenChangePoint} (h : changePoints last events = .ok points) :
    (points.map ScreenChangePoint.timestampNs).Sublist (events.map ScreenEvent.timestampNs) := by
  fun_induction changePoints last events generalizing points with
  | case1 last => cases h; exact .slnil
  | case2 => nomatch h
  | case3 last event events _ ih => exact (ih h).cons _
  | case4 event events state _ ih => exact (ih h).cons _
  | case5 last event events state _ hnew ih =>
      cases hrest : changePoints (some state) events with
      | error error => simp [hrest, Except.map] at h
      | ok rest =>
          simp only [hrest, Except.map, Except.ok.injEq] at h
          subst h
          exact (ih hrest).cons_cons event.timestampNs

theorem mem_participantPoints {rawEvents : List Row} {listed : List String}
    {table : List (String × List ScreenChangePoint)}
    (h : participantPoints rawEvents listed = .ok table)
    {participantId : String} {points : List ScreenChangePoint}
    (hmem : (participantId, points) ∈ table) :
    changePoints none (participantEvents rawEvents participantId) = .ok points := by
  induction listed generalizing table with
  | nil =>
      simp only [participantPoints, Except.ok.injEq] at h
      subst h
      exact absurd hmem List.not_mem_nil
  | cons first later ih =>
      cases hfirst : changePoints none (participantEvents rawEvents first) with
      | error error => simp [participantPoints, hfirst, bind, Except.bind] at h
      | ok firstPoints =>
          cases hlater : participantPoints rawEvents later with
          | error error => simp [participantPoints, hfirst, hlater, bind, Except.bind] at h
          | ok rest =>
              simp only [participantPoints, hfirst, hlater, bind, Except.bind, pure, Except.pure,
                Except.ok.injEq] at h
              subst h
              rcases List.mem_cons.mp hmem with heq | hmem
              · obtain ⟨rfl, rfl⟩ := Prod.mk.inj heq
                exact hfirst
              · exact ih hlater hmem

/-- Every table of the substrate lists its instants in order of time. -/
structure ScreenCreditSubstrate.Ordered (substrate : ScreenCreditSubstrate) : Prop where
  points : ∀ entry ∈ substrate.points, entry.2.Pairwise fun a b => a.timestampNs ≤ b.timestampNs
  allTimestamps : ∀ entry ∈ substrate.allTimestamps, entry.2.Pairwise (· ≤ ·)

theorem participantEvents_ordered (rawEvents : List Row) (participantId : String) :
    ((participantEvents rawEvents participantId).map ScreenEvent.timestampNs).Pairwise (· ≤ ·) :=
  List.pairwise_map.mpr (pairwise_sortByKey _ _)

/-- A substrate built from raw events is ordered. -/
theorem buildScreenCreditSubstrate_ordered {rawEvents : List Row}
    {substrate : ScreenCreditSubstrate} (h : buildScreenCreditSubstrate rawEvents = .ok substrate) :
    substrate.Ordered := by
  cases hpoints : participantPoints rawEvents (participants rawEvents) with
  | error error => simp [buildScreenCreditSubstrate, hpoints, bind, Except.bind] at h
  | ok table =>
      simp only [buildScreenCreditSubstrate, hpoints, bind, Except.bind, pure, Except.pure,
        Except.ok.injEq] at h
      subst h
      refine ⟨fun entry hentry => ?_, fun entry hentry => ?_⟩
      · have hsublist := sublist_changePoints (mem_participantPoints hpoints hentry)
        exact List.pairwise_map.mp ((participantEvents_ordered rawEvents entry.1).sublist hsublist)
      · obtain ⟨participantId, _, rfl⟩ := List.mem_map.mp hentry
        exact participantEvents_ordered rawEvents participantId

end Chronicle.Credit
