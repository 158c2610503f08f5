import Chronicle.Eyes.Evidence
import Chronicle.Library.Positions
import Chronicle.Library.Stages

/-!
# When a notification was seen

The events of several participants arrive in one stream. An outcome is written when a notification
arrives and written again when its participant next unlocks the phone, through the position that was
noted on arrival.
-/

namespace Chronicle.Adapters

open Chronicle.Library.Machine Chronicle.Library.Positions Chronicle.Library.Stages Chronicle.Eyes

/-- `NotificationPhoneEventKind` -/
inductive NotificationPhoneEventKind where
  | notificationArrival (notificationId : String)
  | phoneLocked
  | phoneUnlocked
deriving DecidableEq, Repr

/-- `OrderedNotificationPhoneEvent` -/
structure OrderedNotificationPhoneEvent where
  participantId : String
  timestampNs : Int
  kind : NotificationPhoneEventKind
deriving DecidableEq, Repr

/-- `NotificationSeenTimeConfiguration` -/
structure NotificationSeenTimeConfiguration where
  maximumSeenTimeNs : Int
deriving DecidableEq, Repr

/-- `NotificationSeenResolution` -/
inductive NotificationSeenResolution where
  | alreadyUnlocked
  | nextUnlock
deriving DecidableEq, Repr

/-- `NotificationSeenExclusionReason` -/
inductive NotificationSeenExclusionReason where
  | unknownPhoneStateAtArrival
  | noFollowingUnlock
  | exceededMaximumSeenTime
deriving DecidableEq, Repr

/-- `NotificationSeenTimeDisposition` -/
inductive NotificationSeenTimeDisposition where
  | retained (seenTimestampNs seenTimeNs : Int) (resolution : NotificationSeenResolution)
  | excluded (reason : NotificationSeenExclusionReason)
      (candidateSeenTimestampNs candidateSeenTimeNs : Option Int)
deriving DecidableEq, Repr

/-- `NotificationSeenTimeOutcome` -/
structure NotificationSeenTimeOutcome where
  participantId : String
  notificationId : String
  arrivalTimestampNs : Int
  disposition : NotificationSeenTimeDisposition
deriving DecidableEq, Repr

/-- `NotificationSeenTimeError` -/
inductive NotificationSeenTimeError where
  | invalidConfiguration
  | emptyParticipantId
  | emptyNotificationId
  | duplicateNotificationId (participantId notificationId : String)
  | participantEventsOutOfOrder (participantId : String) (previousTimestampNs timestampNs : Int)
  | seenTimeOverflow (participantId : String) (arrivalTimestampNs unlockTimestampNs : Int)
deriving DecidableEq, Repr

/-- `PhoneState` -/
inductive PhoneState where
  | unknown
  | locked
  | unlocked
deriving DecidableEq, Repr

/-- `PendingNotification` -/
structure PendingNotification where
  outputIndex : Nat
  arrivalTimestampNs : Int
deriving DecidableEq, Repr

/-- `ParticipantState` -/
structure ParticipantState where
  latestTimestampNs : Option Int
  phoneState : Option PhoneState
  pending : List PendingNotification
  notificationIds : List String

/-- The `Default` of a `ParticipantState`. -/
def ParticipantState.new : ParticipantState := ⟨none, none, [], []⟩

/-- The variables of the loop: `participant_states` and `outcomes`. -/
structure SeenProgress where
  participantStates : String → ParticipantState
  outcomes : List NotificationSeenTimeOutcome

/-- The disposition of a notification that is linked to an unlock. -/
def linked (maximumSeenTimeNs unlockNs elapsedNs : Int) : NotificationSeenTimeDisposition :=
  if elapsedNs > maximumSeenTimeNs then
    .excluded .exceededMaximumSeenTime (some unlockNs) (some elapsedNs)
  else .retained unlockNs elapsedNs .nextUnlock

/-- One turn of the drain loop. Its position is always there (`pending_lt`), so that the indexing
of the source does not panic. -/
def linkPending (maximumSeenTimeNs : Int) (participantId : String) (unlockNs : Int)
    (outcomes : List NotificationSeenTimeOutcome) (pending : PendingNotification) :
    Except NotificationSeenTimeError (List NotificationSeenTimeOutcome) :=
  if ¬Fits64 (unlockNs - pending.arrivalTimestampNs) then
    .error (.seenTimeOverflow participantId pending.arrivalTimestampNs unlockNs)
  else .ok (outcomes.modify pending.outputIndex fun outcome =>
    { outcome with
      disposition :=
        linked maximumSeenTimeNs unlockNs (unlockNs - pending.arrivalTimestampNs) })

/-- The disposition that is pushed on arrival. -/
def arrivalDisposition (timestampNs : Int) : PhoneState → NotificationSeenTimeDisposition
  | .unlocked => .retained timestampNs 0 .alreadyUnlocked
  | .locked => .excluded .noFollowingUnlock none none
  | .unknown => .excluded .unknownPhoneStateAtArrival none none

/-- An earlier event of the participant is later than this one. -/
def outOfOrder (state : ParticipantState) (timestampNs : Int) : Bool :=
  state.latestTimestampNs.any fun previous => timestampNs < previous

/-- The `match` on the kind of an event, with the state of its participant. -/
def seenKind (configuration : NotificationSeenTimeConfiguration) (progress : SeenProgress)
    (event : OrderedNotificationPhoneEvent) (state : ParticipantState) :
    Except NotificationSeenTimeError SeenProgress :=
  let id := event.participantId
  match event.kind with
  | .phoneLocked =>
      .ok { progress with
        participantStates := Function.update progress.participantStates id
          { state with phoneState := some .locked } }
  | .phoneUnlocked =>
      (state.pending.foldlM
        (linkPending configuration.maximumSeenTimeNs id event.timestampNs)
        progress.outcomes).map fun outcomes =>
          ⟨Function.update progress.participantStates id
            { state with phoneState := some .unlocked, pending := [] }, outcomes⟩
  | .notificationArrival notificationId =>
      if isBlank notificationId then .error .emptyNotificationId
      else if notificationId ∈ state.notificationIds then
        .error (.duplicateNotificationId id notificationId)
      else
        let phoneState := state.phoneState.getD .unknown
        .ok ⟨Function.update progress.participantStates id
            { state with
              notificationIds := notificationId :: state.notificationIds
              pending := state.pending ++ if phoneState = .locked then
                [⟨progress.outcomes.length, event.timestampNs⟩] else [] },
          progress.outcomes ++
            [⟨id, notificationId, event.timestampNs,
              arrivalDisposition event.timestampNs phoneState⟩]⟩

/-- The body of the loop over the events. -/
def seenStep (configuration : NotificationSeenTimeConfiguration) (progress : SeenProgress)
    (event : OrderedNotificationPhoneEvent) : Except NotificationSeenTimeError SeenProgress :=
  let state := progress.participantStates event.participantId
  if isBlank event.participantId then .error .emptyParticipantId
  else if outOfOrder state event.timestampNs then
    .error (.participantEventsOutOfOrder event.participantId (state.latestTimestampNs.getD 0)
      event.timestampNs)
  else
    seenKind configuration progress event { state with latestTimestampNs := some event.timestampNs }

/-- `derive_notification_seen_times` -/
def deriveNotificationSeenTimes (events : List OrderedNotificationPhoneEvent)
    (configuration : NotificationSeenTimeConfiguration) :
    Except NotificationSeenTimeError (List NotificationSeenTimeOutcome) :=
  if configuration.maximumSeenTimeNs ≤ 0 then .error .invalidConfiguration
  else (events.foldlM (seenStep configuration) ⟨fun _ => .new, []⟩).map SeenProgress.outcomes

/-! ## The rule -/

/-- The events of one participant. -/
def eventsOf (participantId : String) (events : List OrderedNotificationPhoneEvent) :
    List OrderedNotificationPhoneEvent :=
  events.filter fun event => event.participantId = participantId

/-- The phone state that an event shows. -/
def NotificationPhoneEventKind.phoneState : NotificationPhoneEventKind → Option PhoneState
  | .phoneLocked => some .locked
  | .phoneUnlocked => some .unlocked
  | .notificationArrival _ => none

/-- What the last lock or unlock event shows, none where there is no such event. -/
def lastPhoneState (own : List OrderedNotificationPhoneEvent) : Option PhoneState :=
  (own.filterMap fun event => event.kind.phoneState).getLast?

/-- The time of the first unlock. -/
def firstUnlock (own : List OrderedNotificationPhoneEvent) : Option Int :=
  (own.find? fun event => event.kind = .phoneUnlocked).map
    OrderedNotificationPhoneEvent.timestampNs

/-- The disposition of an arrival between its participant's events before and after. -/
def dispositionBetween (maximumSeenTimeNs : Int) (ownBefore : List OrderedNotificationPhoneEvent)
    (arrivalNs : Int) (ownAfter : List OrderedNotificationPhoneEvent) :
    NotificationSeenTimeDisposition :=
  match lastPhoneState ownBefore with
  | some .unlocked => .retained arrivalNs 0 .alreadyUnlocked
  | some .locked =>
      match firstUnlock ownAfter with
      | none => .excluded .noFollowingUnlock none none
      | some unlockNs => linked maximumSeenTimeNs unlockNs (unlockNs - arrivalNs)
  | _ => .excluded .unknownPhoneStateAtArrival none none

/-- The notification that an event brings. -/
def NotificationPhoneEventKind.notification : NotificationPhoneEventKind → Option String
  | .notificationArrival notificationId => some notificationId
  | _ => none

/-- The rules about identifiers, uniqueness and order. -/
structure ObeysRules (events : List OrderedNotificationPhoneEvent) : Prop where
  participants : ∀ event ∈ events, isBlank event.participantId = false
  notifications : ∀ event ∈ events, ∀ id, event.kind = .notificationArrival id →
    isBlank id = false
  nodup : ∀ participantId,
    ((eventsOf participantId events).filterMap fun event => event.kind.notification).Nodup
  ordered : ∀ participantId,
    ((eventsOf participantId events).map OrderedNotificationPhoneEvent.timestampNs).Pairwise
      (· ≤ ·)

/-- The arrival stands in a locked phase of its participant that this unlock ends. -/
def LinkedSpan (events : List OrderedNotificationPhoneEvent) (arrivalNs unlockNs : Int) : Prop :=
  ∃ before event after id, events = before ++ event :: after ∧
    event.kind = .notificationArrival id ∧ event.timestampNs = arrivalNs ∧
    lastPhoneState (eventsOf event.participantId before) = some .locked ∧
    firstUnlock (eventsOf event.participantId after) = some unlockNs

/-! ## The outcomes of a prefix -/

variable {configuration : NotificationSeenTimeConfiguration} {maximumNs arrivalNs unlockNs : Int}
  {before after events : List OrderedNotificationPhoneEvent} {event : OrderedNotificationPhoneEvent}
  {outcome : NotificationSeenTimeOutcome} {participantId : String}

/-- The outcome of the arrival of a notification between the events before and after. -/
def outcomeBetween (maximumNs : Int) (before : List OrderedNotificationPhoneEvent)
    (event : OrderedNotificationPhoneEvent) (after : List OrderedNotificationPhoneEvent)
    (notificationId : String) : NotificationSeenTimeOutcome :=
  ⟨event.participantId, notificationId, event.timestampNs,
    dispositionBetween maximumNs (eventsOf event.participantId before) event.timestampNs
      (eventsOf event.participantId after)⟩

/-- The outcome that an event adds, if it is an arrival. -/
def outcomesOf (maximumNs : Int) (before : List OrderedNotificationPhoneEvent)
    (event : OrderedNotificationPhoneEvent) (after : List OrderedNotificationPhoneEvent) :
    List NotificationSeenTimeOutcome :=
  (event.kind.notification.map (outcomeBetween maximumNs before event after)).toList

/-- The outcomes of a stretch of events behind those before. -/
def outcomesFrom (maximumNs : Int) (before : List OrderedNotificationPhoneEvent) :
    List OrderedNotificationPhoneEvent → List NotificationSeenTimeOutcome
  | [] => []
  | event :: after =>
      outcomesOf maximumNs before event after ++ outcomesFrom maximumNs (before ++ [event]) after

/-- The outcome waits for an unlock of the participant. -/
def isOpen (participantId : String) (outcome : NotificationSeenTimeOutcome) : Bool :=
  outcome.participantId = participantId ∧
    outcome.disposition = .excluded .noFollowingUnlock none none

/-- The outcome linked to an unlock. -/
def linkTo (maximumNs unlockNs : Int) (outcome : NotificationSeenTimeOutcome) :
    NotificationSeenTimeOutcome :=
  { outcome with
    disposition := linked maximumNs unlockNs (unlockNs - outcome.arrivalTimestampNs) }

/-- What one more event makes of an outcome before it. -/
def absorb (maximumNs : Int) (event : OrderedNotificationPhoneEvent)
    (outcome : NotificationSeenTimeOutcome) : NotificationSeenTimeOutcome :=
  if event.kind = .phoneUnlocked ∧ isOpen event.participantId outcome then
    linkTo maximumNs event.timestampNs outcome
  else outcome

@[simp]
theorem eventsOf_append (id : String) (before after : List OrderedNotificationPhoneEvent) :
    eventsOf id (before ++ after) = eventsOf id before ++ eventsOf id after :=
  List.filter_append ..

theorem eventsOf_cons (id : String) (event : OrderedNotificationPhoneEvent)
    (after : List OrderedNotificationPhoneEvent) :
    eventsOf id (event :: after) =
      (if event.participantId = id then [event] else []) ++ eventsOf id after := by
  unfold eventsOf
  rw [List.filter_cons]
  split <;> simp_all

theorem eventsOf_singleton_self (event : OrderedNotificationPhoneEvent) :
    eventsOf event.participantId [event] = [event] := by
  rw [eventsOf_cons, if_pos rfl]
  rfl

theorem eventsOf_singleton_ne (h : event.participantId ≠ participantId) :
    eventsOf participantId [event] = [] := by
  rw [eventsOf_cons, if_neg h]
  rfl

theorem linked_ne_open (elapsedNs : Int) :
    linked maximumNs unlockNs elapsedNs ≠ .excluded .noFollowingUnlock none none := by
  unfold linked
  split <;> simp

theorem lastPhoneState_snoc (own : List OrderedNotificationPhoneEvent)
    (event : OrderedNotificationPhoneEvent) :
    lastPhoneState (own ++ [event]) = event.kind.phoneState.or (lastPhoneState own) := by
  unfold lastPhoneState
  rw [List.filterMap_append]
  cases hkind : event.kind.phoneState with
  | none => simp [hkind]
  | some state => simp [hkind]

theorem firstUnlock_append (own own' : List OrderedNotificationPhoneEvent) :
    firstUnlock (own ++ own') = (firstUnlock own).or (firstUnlock own') := by
  unfold firstUnlock
  rw [List.find?_append]
  cases own.find? fun event => event.kind = .phoneUnlocked <;> simp

theorem firstUnlock_singleton (event : OrderedNotificationPhoneEvent) :
    firstUnlock [event] =
      if event.kind = .phoneUnlocked then some event.timestampNs else none := by
  unfold firstUnlock
  by_cases h : event.kind = .phoneUnlocked <;> simp [h]

/-- An arrival is open as long as it came while the phone was locked and no unlock followed. -/
theorem dispositionBetween_eq_open {ownBefore ownAfter : List OrderedNotificationPhoneEvent} :
    dispositionBetween maximumNs ownBefore arrivalNs ownAfter =
        .excluded .noFollowingUnlock none none ↔
      lastPhoneState ownBefore = some .locked ∧ firstUnlock ownAfter = none := by
  unfold dispositionBetween
  split
  · rename_i hlast
    simp [hlast]
  · rename_i hlast
    rw [hlast]
    cases firstUnlock ownAfter with
    | none => simp
    | some unlockNs => simp [linked_ne_open]
  · rename_i hlast _
    simp_all

theorem isOpen_outcomeBetween {id : String} :
    isOpen participantId (outcomeBetween maximumNs before event after id) = true ↔
      event.participantId = participantId ∧
        lastPhoneState (eventsOf event.participantId before) = some .locked ∧
        firstUnlock (eventsOf event.participantId after) = none := by
  unfold isOpen
  rw [decide_eq_true_iff]
  exact and_congr Iff.rfl dispositionBetween_eq_open

theorem absorb_of_not_open (h : isOpen event.participantId outcome = false) :
    absorb maximumNs event outcome = outcome :=
  if_neg fun hopen => Bool.false_ne_true (h.symm.trans hopen.2)

theorem absorb_of_not_unlocked (h : event.kind ≠ .phoneUnlocked) :
    absorb maximumNs event outcome = outcome :=
  if_neg fun hopen => h hopen.1

/-- One more event behind an arrival. -/
theorem outcomeBetween_snoc (next : OrderedNotificationPhoneEvent) (id : String) :
    outcomeBetween maximumNs before event (after ++ [next]) id =
      absorb maximumNs next (outcomeBetween maximumNs before event after id) := by
  by_cases hown : event.participantId = next.participantId
  · have hafter : eventsOf event.participantId (after ++ [next]) =
        eventsOf event.participantId after ++ [next] := by
      rw [eventsOf_append, hown, eventsOf_singleton_self]
    by_cases hunlock : next.kind = .phoneUnlocked
    · by_cases hopen : isOpen next.participantId
          (outcomeBetween maximumNs before event after id) = true
      · rw [absorb, if_pos ⟨hunlock, hopen⟩]
        obtain ⟨-, hlast, hfirst⟩ := isOpen_outcomeBetween.mp hopen
        have hfirst' : firstUnlock (eventsOf event.participantId (after ++ [next])) =
            some next.timestampNs := by
          rw [hafter, firstUnlock_append, hfirst, firstUnlock_singleton, if_pos hunlock]
          rfl
        simp only [outcomeBetween, dispositionBetween, linkTo, hlast, hfirst']
      · rw [absorb_of_not_open (Bool.eq_false_iff.mpr hopen)]
        rw [isOpen_outcomeBetween] at hopen
        unfold outcomeBetween dispositionBetween
        rw [hafter, firstUnlock_append]
        split
        · rfl
        · rename_i hlast
          cases hfirst : firstUnlock (eventsOf event.participantId after) with
          | none => exact absurd ⟨hown, hlast, hfirst⟩ hopen
          | some unlockNs => rfl
        · rfl
    · rw [absorb_of_not_unlocked hunlock]
      unfold outcomeBetween dispositionBetween
      rw [hafter, firstUnlock_append, firstUnlock_singleton, if_neg hunlock, Option.or_none]
  · have hafter : eventsOf event.participantId (after ++ [next]) =
        eventsOf event.participantId after := by
      rw [eventsOf_append, eventsOf_singleton_ne (Ne.symm hown), List.append_nil]
    have hopen : isOpen next.participantId
        (outcomeBetween maximumNs before event after id) = false :=
      Bool.eq_false_iff.mpr fun h => hown (isOpen_outcomeBetween.mp h).1
    rw [absorb_of_not_open hopen]
    unfold outcomeBetween
    rw [hafter]

theorem outcomesFrom_snoc (before events : List OrderedNotificationPhoneEvent)
    (next : OrderedNotificationPhoneEvent) :
    outcomesFrom maximumNs before (events ++ [next]) =
      (outcomesFrom maximumNs before events).map (absorb maximumNs next) ++
        outcomesOf maximumNs (before ++ events) next [] := by
  induction events generalizing before with
  | nil => simp [outcomesFrom]
  | cons event events ih =>
    have hevent : outcomesOf maximumNs before event (events ++ [next]) =
        (outcomesOf maximumNs before event events).map (absorb maximumNs next) := by
      unfold outcomesOf
      cases event.kind.notification with
      | none => rfl
      | some id => exact congrArg ([·]) (outcomeBetween_snoc next id)
    rw [List.cons_append, outcomesFrom, outcomesFrom, ih, hevent]
    simp

theorem mem_outcomesFrom {before events : List OrderedNotificationPhoneEvent} :
    outcome ∈ outcomesFrom maximumNs before events ↔
      ∃ left event right id, events = left ++ event :: right ∧
        event.kind = .notificationArrival id ∧
        outcome = outcomeBetween maximumNs (before ++ left) event right id := by
  induction events generalizing before with
  | nil => simp [outcomesFrom]
  | cons first events ih =>
    rw [outcomesFrom, List.mem_append, ih]
    constructor
    · rintro (hfirst | ⟨left, event, right, id, rfl, hkind, rfl⟩)
      · unfold outcomesOf at hfirst
        cases hkind : first.kind with
        | notificationArrival id =>
          simp only [hkind, NotificationPhoneEventKind.notification, Option.map_some,
            Option.toList_some, List.mem_singleton] at hfirst
          exact ⟨[], first, events, id, rfl, hkind, by rw [hfirst, List.append_nil]⟩
        | phoneLocked => simp [hkind, NotificationPhoneEventKind.notification] at hfirst
        | phoneUnlocked => simp [hkind, NotificationPhoneEventKind.notification] at hfirst
      · exact ⟨first :: left, event, right, id, rfl, hkind, by simp⟩
    · rintro ⟨left, event, right, id, hsplit, hkind, rfl⟩
      cases left with
      | nil =>
        obtain ⟨rfl, rfl⟩ := List.cons.inj hsplit
        left
        simp [outcomesOf, hkind, NotificationPhoneEventKind.notification]
      | cons head left =>
        obtain ⟨rfl, rfl⟩ := List.cons.inj hsplit
        exact .inr ⟨left, event, right, id, rfl, hkind, by simp⟩

/-! ## The variables after a prefix -/

/-- The notifications of a participant's events. -/
def notificationsOf (own : List OrderedNotificationPhoneEvent) : List String :=
  own.filterMap fun event => event.kind.notification

/-- The open outcomes of a participant as pending notifications. -/
def pendingOf (participantId : String) (outcomes : List NotificationSeenTimeOutcome) :
    List PendingNotification :=
  (positions (isOpen participantId) 0 outcomes).map fun cell =>
    ⟨cell.2, cell.1.arrivalTimestampNs⟩

/-- What is held for a participant after a prefix. -/
def stateAfter (maximumNs : Int) (before : List OrderedNotificationPhoneEvent)
    (participantId : String) : ParticipantState :=
  ⟨((eventsOf participantId before).map OrderedNotificationPhoneEvent.timestampNs).getLast?,
    lastPhoneState (eventsOf participantId before),
    pendingOf participantId (outcomesFrom maximumNs [] before),
    (notificationsOf (eventsOf participantId before)).reverse⟩

/-- The variables of the loop after a prefix. -/
def progressAfter (maximumNs : Int) (before : List OrderedNotificationPhoneEvent) : SeenProgress :=
  ⟨stateAfter maximumNs before, outcomesFrom maximumNs [] before⟩

/-- A noted position is a position of the outcomes, so that its indexing does not panic. -/
theorem pending_lt {outcomes : List NotificationSeenTimeOutcome} {pending : PendingNotification}
    (h : pending ∈ pendingOf participantId outcomes) : pending.outputIndex < outcomes.length := by
  obtain ⟨cell, hcell, rfl⟩ := List.mem_map.mp h
  exact lt_of_mem_positions hcell

theorem pendingOf_append (outcomes more : List NotificationSeenTimeOutcome) :
    pendingOf participantId (outcomes ++ more) =
      pendingOf participantId outcomes ++
        (positions (isOpen participantId) outcomes.length more).map fun cell =>
          ⟨cell.2, cell.1.arrivalTimestampNs⟩ := by
  unfold pendingOf
  rw [positions_append, List.map_append, Nat.zero_add]

theorem isOpen_linkTo : isOpen participantId (linkTo maximumNs unlockNs outcome) = false :=
  decide_eq_false fun h => linked_ne_open _ h.2

/-- An event leaves the open outcomes of the other participants alone. -/
theorem isOpen_absorb_ne (h : event.participantId ≠ participantId) :
    isOpen participantId (absorb maximumNs event outcome) = isOpen participantId outcome := by
  unfold absorb
  split
  · rename_i hopen
    rw [isOpen_linkTo]
    refine (decide_eq_false fun hown => h ?_).symm
    exact (of_decide_eq_true hopen.2).1.symm.trans hown.1
  · rfl

theorem absorb_of_open_ne (h : event.participantId ≠ participantId)
    (hopen : isOpen participantId outcome = true) : absorb maximumNs event outcome = outcome :=
  absorb_of_not_open (decide_eq_false fun hown =>
    h (hown.1.symm.trans (of_decide_eq_true hopen).1))

theorem positions_outcomesOf_ne (h : event.participantId ≠ participantId) (start : Nat) :
    positions (isOpen participantId) start (outcomesOf maximumNs before event []) = [] := by
  refine positions_eq_nil fun outcome houtcome => ?_
  unfold outcomesOf at houtcome
  obtain ⟨id, -, rfl⟩ := Option.map_eq_some_iff.mp (Option.mem_toList.mp houtcome)
  exact Bool.eq_false_iff.mpr fun hopen => h (isOpen_outcomeBetween.mp hopen).1

/-- The other participants' states stay. -/
theorem stateAfter_snoc_ne (h : event.participantId ≠ participantId) :
    stateAfter maximumNs (before ++ [event]) participantId =
      stateAfter maximumNs before participantId := by
  have hown : eventsOf participantId (before ++ [event]) = eventsOf participantId before := by
    rw [eventsOf_append, eventsOf_singleton_ne h, List.append_nil]
  have hpending : pendingOf participantId (outcomesFrom maximumNs [] (before ++ [event])) =
      pendingOf participantId (outcomesFrom maximumNs [] before) := by
    rw [outcomesFrom_snoc, pendingOf_append, List.nil_append, positions_outcomesOf_ne h,
      List.map_nil, List.append_nil]
    unfold pendingOf
    rw [positions_map (fun _ _ => isOpen_absorb_ne h) fun _ _ => absorb_of_open_ne h]
  unfold stateAfter
  rw [hown, hpending]

/-- Only the state of the event's participant is put anew. -/
theorem stateAfter_snoc : stateAfter maximumNs (before ++ [event]) =
    Function.update (stateAfter maximumNs before) event.participantId
      (stateAfter maximumNs (before ++ [event]) event.participantId) := by
  funext id
  by_cases h : id = event.participantId
  · subst h
    rw [Function.update_self]
  · rw [Function.update_of_ne h, stateAfter_snoc_ne (Ne.symm h)]

/-- The state of the event's participant, as its fields. -/
theorem stateAfter_snoc_self (maximumNs : Int) : stateAfter maximumNs (before ++ [event]) event.participantId =
    ⟨some event.timestampNs,
      event.kind.phoneState.or (stateAfter maximumNs before event.participantId).phoneState,
      pendingOf event.participantId
          ((outcomesFrom maximumNs [] before).map (absorb maximumNs event)) ++
        (positions (isOpen event.participantId) (outcomesFrom maximumNs [] before).length
          (outcomesOf maximumNs before event [])).map
            fun cell => ⟨cell.2, cell.1.arrivalTimestampNs⟩,
      event.kind.notification.toList ++
        (stateAfter maximumNs before event.participantId).notificationIds⟩ := by
  have hids : (notificationsOf (eventsOf event.participantId (before ++ [event]))).reverse =
      event.kind.notification.toList ++
        (notificationsOf (eventsOf event.participantId before)).reverse := by
    unfold notificationsOf
    rw [eventsOf_append, eventsOf_singleton_self, List.filterMap_append, List.reverse_append]
    cases hkind : event.kind.notification <;> simp [hkind]
  unfold stateAfter
  rw [hids, eventsOf_append, eventsOf_singleton_self, lastPhoneState_snoc, outcomesFrom_snoc,
    pendingOf_append, List.map_append, List.length_map]
  simp

/-! ## One event -/

/-- What the step asks of an event behind a prefix. -/
structure MayFollow (maximumNs : Int) (before : List OrderedNotificationPhoneEvent)
    (event : OrderedNotificationPhoneEvent) : Prop where
  participant : isBlank event.participantId = false
  ordered : outOfOrder (stateAfter maximumNs before event.participantId) event.timestampNs = false
  notification : ∀ id, event.kind = .notificationArrival id → isBlank id = false ∧
    id ∉ notificationsOf (eventsOf event.participantId before)
  spans : event.kind = .phoneUnlocked → ∀ outcome ∈ outcomesFrom maximumNs [] before,
    isOpen event.participantId outcome = true →
      Fits64 (event.timestampNs - outcome.arrivalTimestampNs)

/-- The drain loop succeeds when all spans fit, and changes each noted outcome. -/
theorem drain_eq_ok (noted : List (NotificationSeenTimeOutcome × Nat))
    (outcomes outcomes' : List NotificationSeenTimeOutcome) :
    (noted.map fun cell => (⟨cell.2, cell.1.arrivalTimestampNs⟩ : PendingNotification)).foldlM
        (linkPending maximumNs participantId unlockNs) outcomes = .ok outcomes' ↔
      (∀ cell ∈ noted, Fits64 (unlockNs - cell.1.arrivalTimestampNs)) ∧
        outcomes' = changeAt (fun old outcome =>
          { outcome with
            disposition := linked maximumNs unlockNs (unlockNs - old.arrivalTimestampNs) })
          outcomes noted := by
  induction noted generalizing outcomes with
  | nil =>
    rw [List.map_nil, List.foldlM_nil]
    exact ⟨fun h => ⟨fun _ hcell => absurd hcell List.not_mem_nil, (Except.ok.inj h).symm⟩,
      fun h => congrArg Except.ok h.2.symm⟩
  | cons cell noted ih =>
    rw [List.map_cons, List.foldlM_cons, bind_eq_ok, List.forall_mem_cons]
    constructor
    · rintro ⟨next, hnext, hrest⟩
      obtain ⟨hfits, hnext⟩ := ite_error_eq_ok.mp hnext
      obtain ⟨hall, rfl⟩ := (ih _).mp hrest
      exact ⟨⟨not_not.mp hfits, hall⟩, by rw [← Except.ok.inj hnext]; rfl⟩
    · rintro ⟨⟨hfits, hall⟩, rfl⟩
      exact ⟨_, ite_error_eq_ok.mpr ⟨not_not.mpr hfits, rfl⟩, (ih _).mpr ⟨hall, rfl⟩⟩

/-- The drain loop over the pending notifications of a participant. -/
theorem drain_pendingOf (maximumNs : Int) (outcomes outcomes' : List NotificationSeenTimeOutcome)
    (hunlock : event.kind = .phoneUnlocked) :
    (pendingOf event.participantId outcomes).foldlM
        (linkPending maximumNs event.participantId event.timestampNs) outcomes = .ok outcomes' ↔
      (∀ outcome ∈ outcomes, isOpen event.participantId outcome = true →
        Fits64 (event.timestampNs - outcome.arrivalTimestampNs)) ∧
        outcomes' = outcomes.map (absorb maximumNs event) := by
  have hchange : changeAt (fun old outcome =>
      { outcome with
        disposition := linked maximumNs event.timestampNs
          (event.timestampNs - old.arrivalTimestampNs) })
      outcomes (positions (isOpen event.participantId) 0 outcomes) =
        outcomes.map (absorb maximumNs event) := by
    rw [changeAt_positions]
    refine List.map_congr_left fun outcome _ => ?_
    unfold absorb linkTo
    simp only [hunlock, true_and]
  rw [pendingOf, drain_eq_ok, hchange]
  refine and_congr ⟨fun h outcome houtcome hopen => ?_, fun h cell hcell => ?_⟩ Iff.rfl
  · obtain ⟨i, hi⟩ := exists_mem_positions 0 houtcome hopen
    exact h _ hi
  · obtain ⟨hmem, hopen⟩ := mem_positions hcell
    exact h _ hmem hopen

theorem outcomesOf_of_not_arrival (h : event.kind.notification = none) :
    outcomesOf maximumNs before event after = [] := by
  rw [outcomesOf, h]
  rfl

/-- The variables after one more event, as their fields. -/
theorem progressAfter_snoc {state : ParticipantState}
    {outcomes : List NotificationSeenTimeOutcome}
    (hstate : stateAfter maximumNs (before ++ [event]) event.participantId = state)
    (houtcomes : outcomesFrom maximumNs [] (before ++ [event]) = outcomes) :
    (⟨Function.update (stateAfter maximumNs before) event.participantId state, outcomes⟩ :
      SeenProgress) = progressAfter maximumNs (before ++ [event]) := by
  rw [progressAfter, stateAfter_snoc, hstate, houtcomes]

/-- The state with which the `match` on the kind is entered. -/
def entered (maximumNs : Int) (before : List OrderedNotificationPhoneEvent)
    (event : OrderedNotificationPhoneEvent) : ParticipantState :=
  { stateAfter maximumNs before event.participantId with
    latestTimestampNs := some event.timestampNs }

theorem seenKind_locked (hkind : event.kind = .phoneLocked) :
    seenKind ⟨maximumNs⟩ (progressAfter maximumNs before) event (entered maximumNs before event) =
      .ok (progressAfter maximumNs (before ++ [event])) := by
  have hnone : event.kind.notification = none := by rw [hkind]; rfl
  have habsorb : (outcomesFrom maximumNs [] before).map (absorb maximumNs event) =
      outcomesFrom maximumNs [] before := by
    refine (List.map_congr_left fun outcome _ => ?_).trans (List.map_id _)
    exact absorb_of_not_unlocked (by rw [hkind]; nofun)
  have hprogress := progressAfter_snoc (stateAfter_snoc_self maximumNs)
    (outcomesFrom_snoc [] before event)
  rw [habsorb, outcomesOf_of_not_arrival hnone, outcomesOf_of_not_arrival hnone, hkind] at hprogress
  unfold seenKind
  rw [← hprogress]
  simp only [hkind]
  simp [entered, progressAfter, stateAfter, NotificationPhoneEventKind.phoneState,
    NotificationPhoneEventKind.notification]

theorem pendingOf_absorbed (hkind : event.kind = .phoneUnlocked)
    (outcomes : List NotificationSeenTimeOutcome) :
    pendingOf event.participantId (outcomes.map (absorb maximumNs event)) = [] := by
  have hclosed : ∀ outcome ∈ outcomes.map (absorb maximumNs event),
      isOpen event.participantId outcome = false := by
    intro outcome houtcome
    obtain ⟨old, -, rfl⟩ := List.mem_map.mp houtcome
    unfold absorb
    split
    · exact isOpen_linkTo
    · rename_i hopen
      exact Bool.eq_false_iff.mpr fun h => hopen ⟨hkind, h⟩
  rw [pendingOf, positions_eq_nil hclosed, List.map_nil]

theorem seenKind_unlocked {progress : SeenProgress} (hkind : event.kind = .phoneUnlocked) :
    seenKind ⟨maximumNs⟩ (progressAfter maximumNs before) event (entered maximumNs before event) =
        .ok progress ↔
      (∀ outcome ∈ outcomesFrom maximumNs [] before, isOpen event.participantId outcome = true →
        Fits64 (event.timestampNs - outcome.arrivalTimestampNs)) ∧
        progress = progressAfter maximumNs (before ++ [event]) := by
  have hnone : event.kind.notification = none := by rw [hkind]; rfl
  have hprogress := progressAfter_snoc (stateAfter_snoc_self maximumNs)
    (outcomesFrom_snoc [] before event)
  rw [pendingOf_absorbed hkind, outcomesOf_of_not_arrival hnone, outcomesOf_of_not_arrival hnone,
    hnone] at hprogress
  have hdrain := fun outcomes' =>
    drain_pendingOf maximumNs (outcomesFrom maximumNs [] before) outcomes' hkind
  unfold seenKind
  simp only [hkind, entered, progressAfter]
  rw [map_eq_ok]
  constructor
  · rintro ⟨outcomes, hfold, rfl⟩
    obtain ⟨hfits, rfl⟩ := (hdrain outcomes).mp hfold
    refine ⟨hfits, Eq.trans ?_ hprogress⟩
    simp [hkind, NotificationPhoneEventKind.phoneState, positions]
  · rintro ⟨hfits, rfl⟩
    refine ⟨_, (hdrain _).mpr ⟨hfits, rfl⟩, Eq.trans ?_ hprogress⟩
    simp [hkind, NotificationPhoneEventKind.phoneState, positions]

theorem arrivalDisposition_eq (maximumNs : Int) (own : List OrderedNotificationPhoneEvent)
    (timestampNs : Int) :
    arrivalDisposition timestampNs ((lastPhoneState own).getD .unknown) =
      dispositionBetween maximumNs own timestampNs [] := by
  unfold dispositionBetween
  split
  · rename_i hlast
    rw [hlast]
    rfl
  · rename_i hlast
    rw [hlast]
    rfl
  · rename_i hunlocked hlocked
    cases hlast : lastPhoneState own with
    | none => rfl
    | some state =>
      cases state with
      | unknown => rfl
      | locked => exact absurd hlast hlocked
      | unlocked => exact absurd hlast hunlocked

theorem seenKind_arrival {progress : SeenProgress} {id : String}
    (hkind : event.kind = .notificationArrival id) :
    seenKind ⟨maximumNs⟩ (progressAfter maximumNs before) event (entered maximumNs before event) =
        .ok progress ↔
      (isBlank id = false ∧ id ∉ notificationsOf (eventsOf event.participantId before)) ∧
        progress = progressAfter maximumNs (before ++ [event]) := by
  have hsome : event.kind.notification = some id := by rw [hkind]; rfl
  have hlast : event.kind.phoneState = none := by rw [hkind]; rfl
  -- an arrival is no unlock, so no earlier outcome is settled by it
  have habsorb : (outcomesFrom maximumNs [] before).map (absorb maximumNs event) =
      outcomesFrom maximumNs [] before := by
    refine (List.map_congr_left fun outcome _ => ?_).trans (List.map_id _)
    exact absorb_of_not_unlocked (by rw [hkind]; nofun)
  have houtcome : outcomesOf maximumNs before event [] =
      [outcomeBetween maximumNs before event [] id] := by
    rw [outcomesOf, hsome]
    rfl
  -- the arrival waits for an unlock exactly when the phone is locked
  have hopen : isOpen event.participantId (outcomeBetween maximumNs before event [] id) =
      decide (((lastPhoneState (eventsOf event.participantId before)).getD .unknown) =
        .locked) := by
    rw [Bool.eq_iff_iff, isOpen_outcomeBetween, decide_eq_true_iff]
    cases lastPhoneState (eventsOf event.participantId before) with
    | none => simp
    | some state => simp [eventsOf, firstUnlock]
  have hprogress := progressAfter_snoc (stateAfter_snoc_self maximumNs)
    (outcomesFrom_snoc [] before event)
  rw [habsorb, List.nil_append, houtcome, hsome, hlast, positions_cons, hopen] at hprogress
  unfold seenKind
  simp only [hkind]
  rw [ite_error_eq_ok, ite_error_eq_ok, Bool.not_eq_true, ← and_assoc]
  refine and_congr (and_congr Iff.rfl (not_congr List.mem_reverse)) ?_
  rw [← hprogress, Except.ok.injEq, eq_comm]
  refine iff_of_eq (congrArg (progress = ·) ?_)
  have hpush : ((if decide ((lastPhoneState (eventsOf event.participantId before)).getD .unknown =
        .locked) = true then
        [(outcomeBetween maximumNs before event [] id, (outcomesFrom maximumNs [] before).length)]
      else []) ++ positions (isOpen event.participantId)
        ((outcomesFrom maximumNs [] before).length + 1) []).map
          (fun cell => (⟨cell.2, cell.1.arrivalTimestampNs⟩ : PendingNotification)) =
      if (lastPhoneState (eventsOf event.participantId before)).getD .unknown = .locked then
        [⟨(outcomesFrom maximumNs [] before).length, event.timestampNs⟩] else [] := by
    rw [positions_nil, List.append_nil, apply_ite (List.map _)]
    simp [outcomeBetween]
  rw [hpush]
  simp only [entered, progressAfter, stateAfter, outcomeBetween, arrivalDisposition_eq maximumNs]
  rfl

/-- A step from the variables after a prefix. -/
theorem seenStep_eq_ok {progress : SeenProgress} :
    seenStep ⟨maximumNs⟩ (progressAfter maximumNs before) event = .ok progress ↔
      MayFollow maximumNs before event ∧
        progress = progressAfter maximumNs (before ++ [event]) := by
  have hguards : seenStep ⟨maximumNs⟩ (progressAfter maximumNs before) event = .ok progress ↔
      isBlank event.participantId = false ∧
      outOfOrder (stateAfter maximumNs before event.participantId) event.timestampNs = false ∧
      seenKind ⟨maximumNs⟩ (progressAfter maximumNs before) event
        (entered maximumNs before event) = .ok progress := by
    unfold seenStep
    rw [ite_error_eq_ok, ite_error_eq_ok, Bool.not_eq_true, Bool.not_eq_true]
    rfl
  rw [hguards]
  cases hkind : event.kind with
  | phoneLocked =>
    rw [seenKind_locked hkind, Except.ok.injEq]
    constructor
    · rintro ⟨hparticipant, hordered, rfl⟩
      exact ⟨⟨hparticipant, hordered, by simp [hkind], by simp [hkind]⟩, rfl⟩
    · rintro ⟨h, rfl⟩
      exact ⟨h.participant, h.ordered, rfl⟩
  | phoneUnlocked =>
    rw [seenKind_unlocked hkind]
    constructor
    · rintro ⟨hparticipant, hordered, hspans, rfl⟩
      exact ⟨⟨hparticipant, hordered, by simp [hkind], fun _ => hspans⟩, rfl⟩
    · rintro ⟨h, rfl⟩
      exact ⟨h.participant, h.ordered, h.spans hkind, rfl⟩
  | notificationArrival id =>
    rw [seenKind_arrival hkind]
    constructor
    · rintro ⟨hparticipant, hordered, hnotification, rfl⟩
      refine ⟨⟨hparticipant, hordered, fun id' hid' => ?_, by simp [hkind]⟩, rfl⟩
      obtain rfl := NotificationPhoneEventKind.notificationArrival.inj (hkind.symm.trans hid')
      exact hnotification
    · rintro ⟨h, rfl⟩
      exact ⟨h.participant, h.ordered, h.notification id hkind, rfl⟩

/-! ## The whole run -/

/-- Every linked span is a machine value. -/
def SpansFit (events : List OrderedNotificationPhoneEvent) : Prop :=
  ∀ arrivalNs unlockNs, LinkedSpan events arrivalNs unlockNs → Fits64 (unlockNs - arrivalNs)

theorem getLast?_le_iff {times : List Int} (hsorted : times.Pairwise (· ≤ ·)) (t : Int) :
    (∀ previous ∈ times.getLast?, previous ≤ t) ↔ ∀ previous ∈ times, previous ≤ t := by
  cases times.eq_nil_or_concat with
  | inl hnil => simp [hnil]
  | inr hconcat =>
    obtain ⟨rest, last, rfl⟩ := hconcat
    rw [List.concat_eq_append] at hsorted
    have hrest : ∀ previous ∈ rest, previous ≤ last := fun previous h =>
      (List.pairwise_append.mp hsorted).2.2 previous h last (List.mem_singleton_self last)
    simp only [List.concat_eq_append, List.getLast?_append, List.getLast?_singleton,
      Option.some_or, Option.mem_some_iff, forall_eq', List.mem_append, List.mem_singleton]
    constructor
    · rintro hlast previous (h | rfl)
      · exact (hrest previous h).trans hlast
      · exact hlast
    · exact fun h => h last (.inr rfl)

/-- In order, the check against the last event is the check against all of them. -/
theorem outOfOrder_eq_false (hsorted : ((eventsOf participantId before).map
      OrderedNotificationPhoneEvent.timestampNs).Pairwise (· ≤ ·)) (t : Int) :
    outOfOrder (stateAfter maximumNs before participantId) t = false ↔
      ∀ previous ∈ (eventsOf participantId before).map OrderedNotificationPhoneEvent.timestampNs,
        previous ≤ t := by
  rw [← getLast?_le_iff hsorted, outOfOrder, stateAfter, Option.any_eq_false]
  simp

/-- A property of every participant's events, when one more event comes. -/
theorem forall_own_snoc {P : List OrderedNotificationPhoneEvent → Prop}
    (hinit : ∀ own, P (own ++ [event]) → P own) :
    (∀ id, P (eventsOf id (before ++ [event]))) ↔
      (∀ id, P (eventsOf id before)) ∧ P (eventsOf event.participantId before ++ [event]) := by
  have hself : eventsOf event.participantId (before ++ [event]) =
      eventsOf event.participantId before ++ [event] := by
    rw [eventsOf_append, eventsOf_singleton_self]
  have hother {id : String} (h : event.participantId ≠ id) :
      eventsOf id (before ++ [event]) = eventsOf id before := by
    rw [eventsOf_append, eventsOf_singleton_ne h, List.append_nil]
  constructor
  · intro h
    have hlast := hself ▸ h event.participantId
    refine ⟨fun id => ?_, hlast⟩
    by_cases hid : event.participantId = id
    · exact hid ▸ hinit _ hlast
    · exact hother hid ▸ h id
  · rintro ⟨hbefore, hlast⟩ id
    by_cases hid : event.participantId = id
    · rw [← hid, hself]
      exact hlast
    · rw [hother hid]
      exact hbefore id

theorem notifications_nodup_snoc :
    (∀ id, (notificationsOf (eventsOf id (before ++ [event]))).Nodup) ↔
      (∀ id, (notificationsOf (eventsOf id before)).Nodup) ∧
        ∀ id, event.kind = .notificationArrival id →
          id ∉ notificationsOf (eventsOf event.participantId before) := by
  have hsnoc (own : List OrderedNotificationPhoneEvent) :
      (notificationsOf (own ++ [event])).Nodup ↔ (notificationsOf own).Nodup ∧
        ∀ id, event.kind = .notificationArrival id → id ∉ notificationsOf own := by
    unfold notificationsOf
    rw [List.filterMap_append]
    cases hkind : event.kind with
    | notificationArrival id =>
      have hlast : [event].filterMap (fun event => event.kind.notification) = [id] := by
        simp [hkind, NotificationPhoneEventKind.notification]
      rw [hlast, List.nodup_append_comm, List.singleton_append, List.nodup_cons, and_comm]
      simp
    | phoneLocked => simp [hkind, NotificationPhoneEventKind.notification]
    | phoneUnlocked => simp [hkind, NotificationPhoneEventKind.notification]
  rw [forall_own_snoc (P := fun own => (notificationsOf own).Nodup)
    fun own h => ((hsnoc own).mp h).1, hsnoc]
  exact ⟨fun h => ⟨h.1, h.2.2⟩, fun h => ⟨h.1, h.1 _, h.2⟩⟩

theorem timestamps_pairwise_snoc (maximumNs : Int) :
    (∀ id, ((eventsOf id (before ++ [event])).map
        OrderedNotificationPhoneEvent.timestampNs).Pairwise (· ≤ ·)) ↔
      (∀ id, ((eventsOf id before).map OrderedNotificationPhoneEvent.timestampNs).Pairwise
        (· ≤ ·)) ∧
      outOfOrder (stateAfter maximumNs before event.participantId) event.timestampNs = false := by
  have hsnoc (own : List OrderedNotificationPhoneEvent) :
      ((own ++ [event]).map OrderedNotificationPhoneEvent.timestampNs).Pairwise (· ≤ ·) ↔
        (own.map OrderedNotificationPhoneEvent.timestampNs).Pairwise (· ≤ ·) ∧
          ∀ previous ∈ own.map OrderedNotificationPhoneEvent.timestampNs,
            previous ≤ event.timestampNs := by
    rw [List.map_append, List.pairwise_append]
    simp
  rw [forall_own_snoc (P := fun own =>
    (own.map OrderedNotificationPhoneEvent.timestampNs).Pairwise (· ≤ ·))
    fun own h => ((hsnoc own).mp h).1, hsnoc]
  constructor
  · rintro ⟨hbefore, -, hlast⟩
    exact ⟨hbefore, (outOfOrder_eq_false (hbefore _) _).mpr hlast⟩
  · rintro ⟨hbefore, hlast⟩
    exact ⟨hbefore, hbefore _, (outOfOrder_eq_false (hbefore _) _).mp hlast⟩

/-- The own part of what one more event must obey. -/
theorem obeysRules_snoc (maximumNs : Int) : ObeysRules (before ++ [event]) ↔
    ObeysRules before ∧ isBlank event.participantId = false ∧
      outOfOrder (stateAfter maximumNs before event.participantId) event.timestampNs = false ∧
      ∀ id, event.kind = .notificationArrival id → isBlank id = false ∧
        id ∉ notificationsOf (eventsOf event.participantId before) := by
  constructor
  · rintro ⟨hparticipants, hnotifications, hnodup, hordered⟩
    rw [List.forall_mem_append, List.forall_mem_singleton] at hparticipants hnotifications
    obtain ⟨hnodup, hfresh⟩ := notifications_nodup_snoc.mp hnodup
    obtain ⟨hordered, hlast⟩ := (timestamps_pairwise_snoc maximumNs).mp hordered
    exact ⟨⟨hparticipants.1, hnotifications.1, hnodup, hordered⟩, hparticipants.2, hlast,
      fun id hid => ⟨hnotifications.2 id hid, hfresh id hid⟩⟩
  · rintro ⟨hbefore, hparticipant, hlast, hnotification⟩
    refine ⟨?_, ?_, ?_, ?_⟩
    · exact List.forall_mem_append.mpr
        ⟨hbefore.participants, List.forall_mem_singleton.mpr hparticipant⟩
    · exact List.forall_mem_append.mpr ⟨hbefore.notifications,
        List.forall_mem_singleton.mpr fun id hid => (hnotification id hid).1⟩
    · exact notifications_nodup_snoc.mpr ⟨hbefore.nodup, fun id hid => (hnotification id hid).2⟩
    · exact (timestamps_pairwise_snoc maximumNs).mpr ⟨hbefore.ordered, hlast⟩

theorem append_singleton_eq {α : Type} {xs left right : List α} {x y : α}
    (h : xs ++ [y] = left ++ x :: right) (hright : right ≠ []) :
    ∃ right', right = right' ++ [y] ∧ xs = left ++ x :: right' := by
  obtain hnil | ⟨right', z, rfl⟩ := right.eq_nil_or_concat
  · exact absurd hnil hright
  · rw [List.concat_eq_append, ← List.cons_append, ← List.append_assoc] at h
    obtain ⟨hxs, hz⟩ := List.append_inj' h rfl
    obtain rfl := List.singleton_inj.mp hz
    exact ⟨right', List.concat_eq_append, hxs⟩

/-- One more event adds the spans that it ends. -/
theorem linkedSpan_snoc (maximumNs : Int) : LinkedSpan (before ++ [event]) arrivalNs unlockNs ↔
    LinkedSpan before arrivalNs unlockNs ∨
      event.kind = .phoneUnlocked ∧ event.timestampNs = unlockNs ∧
        ∃ outcome ∈ outcomesFrom maximumNs [] before,
          isOpen event.participantId outcome = true ∧ outcome.arrivalTimestampNs = arrivalNs := by
  constructor
  · rintro ⟨left, arrival, right, id, hsplit, hkind, rfl, hlast, hfirst⟩
    have hright : right ≠ [] := by
      rintro rfl
      cases hfirst
    obtain ⟨right, rfl, rfl⟩ := append_singleton_eq hsplit hright
    rw [eventsOf_append, firstUnlock_append] at hfirst
    cases hbefore : firstUnlock (eventsOf arrival.participantId right) with
    | some earlier =>
      rw [hbefore, Option.some_or] at hfirst
      exact .inl ⟨left, arrival, right, id, rfl, hkind, rfl, hlast, hbefore.trans hfirst⟩
    | none =>
      -- no unlock before, so that the new event is the one
      rw [hbefore, Option.none_or] at hfirst
      by_cases hown : event.participantId = arrival.participantId
      · rw [← hown, eventsOf_singleton_self, firstUnlock_singleton] at hfirst
        split at hfirst
        · rename_i hunlock
          refine .inr ⟨hunlock, Option.some.inj hfirst, _,
            mem_outcomesFrom.mpr ⟨left, arrival, right, id, rfl, hkind, rfl⟩,
            isOpen_outcomeBetween.mpr ⟨hown.symm, hlast, hbefore⟩, rfl⟩
        · cases hfirst
      · rw [eventsOf_singleton_ne hown] at hfirst
        cases hfirst
  · rintro (⟨left, arrival, right, id, rfl, hkind, harrival, hlast, hfirst⟩ |
      ⟨hunlock, rfl, outcome, houtcome, hopen, rfl⟩)
    · refine ⟨left, arrival, right ++ [event], id, by simp, hkind, harrival, hlast, ?_⟩
      rw [eventsOf_append, firstUnlock_append, hfirst]
      rfl
    · obtain ⟨left, arrival, right, id, rfl, hkind, rfl⟩ := mem_outcomesFrom.mp houtcome
      obtain ⟨hown, hlast, hfirst⟩ := isOpen_outcomeBetween.mp hopen
      refine ⟨left, arrival, right ++ [event], id, by simp, hkind, rfl, hlast, ?_⟩
      rw [eventsOf_append, firstUnlock_append, hfirst, hown, eventsOf_singleton_self,
        firstUnlock_singleton, if_pos hunlock]
      rfl

theorem spansFit_snoc (maximumNs : Int) : SpansFit (before ++ [event]) ↔ SpansFit before ∧
    (event.kind = .phoneUnlocked → ∀ outcome ∈ outcomesFrom maximumNs [] before,
      isOpen event.participantId outcome = true →
        Fits64 (event.timestampNs - outcome.arrivalTimestampNs)) := by
  constructor
  · refine fun h => ⟨fun a u hspan => h a u ((linkedSpan_snoc maximumNs).mpr (.inl hspan)), ?_⟩
    intro hkind outcome houtcome hopen
    exact h _ _ ((linkedSpan_snoc maximumNs).mpr (.inr ⟨hkind, rfl, outcome, houtcome, hopen, rfl⟩))
  · rintro ⟨hbefore, hlast⟩ a u hspan
    obtain hspan | ⟨hkind, rfl, outcome, houtcome, hopen, rfl⟩ :=
      (linkedSpan_snoc maximumNs).mp hspan
    · exact hbefore a u hspan
    · exact hlast hkind outcome houtcome hopen

/-- What holds of a stretch with one more event. -/
theorem accepted_snoc (maximumNs : Int) :
    ObeysRules (before ++ [event]) ∧ SpansFit (before ++ [event]) ↔
      (ObeysRules before ∧ SpansFit before) ∧ MayFollow maximumNs before event := by
  rw [obeysRules_snoc maximumNs, spansFit_snoc maximumNs]
  constructor
  · rintro ⟨⟨hrules, hparticipant, hordered, hnotification⟩, hfit, hspans⟩
    exact ⟨⟨hrules, hfit⟩, hparticipant, hordered, hnotification, hspans⟩
  · rintro ⟨⟨hrules, hfit⟩, h⟩
    exact ⟨⟨hrules, h.participant, h.ordered, h.notification⟩, hfit, h.spans⟩

/-- The loop over a stretch of events. -/
theorem seenLoop_eq_ok (events : List OrderedNotificationPhoneEvent) (progress : SeenProgress) :
    events.foldlM (seenStep ⟨maximumNs⟩) ⟨fun _ => .new, []⟩ = .ok progress ↔
      (ObeysRules events ∧ SpansFit events) ∧ progress = progressAfter maximumNs events := by
  induction events using List.reverseRecOn generalizing progress with
  | nil =>
    have hrules : ObeysRules [] := ⟨by simp, by simp, by simp [eventsOf], by simp [eventsOf]⟩
    have hspans : SpansFit [] := by
      rintro a u ⟨left, event, right, id, hsplit, -⟩
      cases left <;> cases hsplit
    rw [List.foldlM_nil, and_iff_right ⟨hrules, hspans⟩]
    exact ⟨fun h => (Except.ok.inj h).symm, fun h => congrArg Except.ok h.symm⟩
  | append_singleton before event ih =>
    rw [List.foldlM_append, bind_eq_ok, accepted_snoc maximumNs]
    constructor
    · rintro ⟨middle, hmiddle, hlast⟩
      obtain ⟨hbefore, rfl⟩ := (ih middle).mp hmiddle
      rw [List.foldlM_cons, bind_eq_ok] at hlast
      obtain ⟨last, hstep, hdone⟩ := hlast
      obtain rfl := Except.ok.inj hdone
      obtain ⟨hmay, rfl⟩ := seenStep_eq_ok.mp hstep
      exact ⟨⟨hbefore, hmay⟩, rfl⟩
    · rintro ⟨⟨hbefore, hmay⟩, rfl⟩
      refine ⟨_, (ih _).mpr ⟨hbefore, rfl⟩, ?_⟩
      rw [List.foldlM_cons, bind_eq_ok]
      exact ⟨_, seenStep_eq_ok.mpr ⟨hmay, rfl⟩, rfl⟩

theorem derive_eq_ok {outcomes : List NotificationSeenTimeOutcome} :
    deriveNotificationSeenTimes events configuration = .ok outcomes ↔
      (0 < configuration.maximumSeenTimeNs ∧ ObeysRules events ∧ SpansFit events) ∧
        outcomes = outcomesFrom configuration.maximumSeenTimeNs [] events := by
  unfold deriveNotificationSeenTimes
  rw [ite_error_eq_ok, map_eq_ok, Int.not_le]
  constructor
  · rintro ⟨hpositive, progress, hloop, rfl⟩
    obtain ⟨haccepted, rfl⟩ := (seenLoop_eq_ok events progress).mp hloop
    exact ⟨⟨hpositive, haccepted⟩, rfl⟩
  · rintro ⟨⟨hpositive, haccepted⟩, rfl⟩
    exact ⟨hpositive, _, (seenLoop_eq_ok events _).mpr ⟨haccepted, rfl⟩, rfl⟩

/-! ## One outcome for each arrival -/

theorem length_outcomesOf : (outcomesOf maximumNs before event after).length =
    (notificationsOf [event]).length := by
  unfold outcomesOf notificationsOf
  cases hkind : event.kind.notification <;> simp [hkind]

theorem notificationsOf_cons (event : OrderedNotificationPhoneEvent)
    (after : List OrderedNotificationPhoneEvent) :
    notificationsOf (event :: after) = notificationsOf [event] ++ notificationsOf after :=
  List.filterMap_append (l := [event])

theorem length_outcomesFrom (before events : List OrderedNotificationPhoneEvent) :
    (outcomesFrom maximumNs before events).length = (notificationsOf events).length := by
  induction events generalizing before with
  | nil => rfl
  | cons event events ih =>
    rw [outcomesFrom, notificationsOf_cons, List.length_append, List.length_append,
      length_outcomesOf, ih]

/-- The outcome of an arrival stands behind one outcome for each arrival before it. -/
theorem getElem?_outcomesFrom {id : String} (hkind : event.kind = .notificationArrival id)
    (before left right : List OrderedNotificationPhoneEvent) :
    (outcomesFrom maximumNs before (left ++ event :: right))[(notificationsOf left).length]? =
      some (outcomeBetween maximumNs (before ++ left) event right id) := by
  induction left generalizing before with
  | nil =>
    have hfirst : outcomesOf maximumNs before event right =
        [outcomeBetween maximumNs before event right id] := by
      rw [outcomesOf, hkind]
      rfl
    rw [List.nil_append, outcomesFrom, hfirst, List.append_nil]
    rfl
  | cons head left ih =>
    rw [List.cons_append, outcomesFrom, notificationsOf_cons, List.length_append,
      List.getElem?_append_right (length_outcomesOf.trans_le (Nat.le_add_right _ _)),
      length_outcomesOf, Nat.add_sub_cancel_left, ih, List.append_assoc, List.singleton_append]

theorem eventsOf_eventsOf (id : String) (events : List OrderedNotificationPhoneEvent) :
    eventsOf id (eventsOf id events) = eventsOf id events := by
  unfold eventsOf
  rw [List.filter_filter]
  simp

/-- A participant's outcomes are the outcomes of the participant's events alone. -/
theorem filter_outcomesFrom (before events : List OrderedNotificationPhoneEvent) :
    (outcomesFrom maximumNs before events).filter (·.participantId = participantId) =
      outcomesFrom maximumNs (eventsOf participantId before) (eventsOf participantId events) := by
  induction events generalizing before with
  | nil => rfl
  | cons event events ih =>
    have hcons : eventsOf participantId (event :: events) =
        eventsOf participantId [event] ++ eventsOf participantId events :=
      eventsOf_append participantId [event] events
    rw [outcomesFrom, List.filter_append, ih, eventsOf_append, hcons]
    by_cases hown : event.participantId = participantId
    · have hevent : (outcomesOf maximumNs before event events).filter
          (·.participantId = participantId) = outcomesOf maximumNs (eventsOf participantId before)
            event (eventsOf participantId events) := by
        unfold outcomesOf
        cases event.kind.notification with
        | none => rfl
        | some id => simp [outcomeBetween, hown, eventsOf_eventsOf]
      have hself : eventsOf participantId [event] = [event] := hown ▸ eventsOf_singleton_self event
      rw [hself, List.singleton_append, outcomesFrom, hevent]
    · have hevent : (outcomesOf maximumNs before event events).filter
          (·.participantId = participantId) = [] := by
        unfold outcomesOf
        cases event.kind.notification with
        | none => rfl
        | some id => simp [outcomeBetween, hown]
      rw [hevent, eventsOf_singleton_ne hown, List.append_nil, List.nil_append, List.nil_append]

/-- The call fails exactly when the maximum is not positive, a rule is broken or a linked span is no
machine value. Otherwise there is one outcome for each arrival, in their order, decided between the
events of its participant before and after, and a participant's outcomes follow from the
participant's events alone. -/
theorem deriveNotificationSeenTimes_spec (events : List OrderedNotificationPhoneEvent)
    (configuration : NotificationSeenTimeConfiguration) :
    ((∃ failure, deriveNotificationSeenTimes events configuration = .error failure) ↔
      configuration.maximumSeenTimeNs ≤ 0 ∨ ¬ObeysRules events ∨
        ∃ arrivalNs unlockNs, LinkedSpan events arrivalNs unlockNs ∧
          ¬Fits64 (unlockNs - arrivalNs)) ∧
    ∀ outcomes, deriveNotificationSeenTimes events configuration = .ok outcomes →
      outcomes.length = (notificationsOf events).length ∧
      (∀ (before after : List OrderedNotificationPhoneEvent)
        (event : OrderedNotificationPhoneEvent) (id : String), events = before ++ event :: after →
        event.kind = .notificationArrival id →
        outcomes[(notificationsOf before).length]? = some ⟨event.participantId, id,
          event.timestampNs, dispositionBetween configuration.maximumSeenTimeNs
            (eventsOf event.participantId before) event.timestampNs
            (eventsOf event.participantId after)⟩) ∧
      ∀ (events' : List OrderedNotificationPhoneEvent)
        (outcomes' : List NotificationSeenTimeOutcome) (participantId : String),
        deriveNotificationSeenTimes events' configuration = .ok outcomes' →
        eventsOf participantId events' = eventsOf participantId events →
        outcomes'.filter (·.participantId = participantId) =
          outcomes.filter (·.participantId = participantId) := by
  constructor
  · have hfails : (∃ failure, deriveNotificationSeenTimes events configuration = .error failure) ↔
        ¬∃ outcomes, deriveNotificationSeenTimes events configuration = .ok outcomes := by
      cases deriveNotificationSeenTimes events configuration <;> simp
    have haccepts : (∃ outcomes, deriveNotificationSeenTimes events configuration = .ok outcomes) ↔
        0 < configuration.maximumSeenTimeNs ∧ ObeysRules events ∧ SpansFit events :=
      ⟨fun ⟨_, h⟩ => (derive_eq_ok.mp h).1, fun h => ⟨_, derive_eq_ok.mpr ⟨h, rfl⟩⟩⟩
    rw [hfails, haccepts, not_and_or, not_and_or, Int.not_lt, SpansFit]
    push Not
    rfl
  · intro outcomes houtcomes
    obtain ⟨-, rfl⟩ := derive_eq_ok.mp houtcomes
    refine ⟨length_outcomesFrom [] events, ?_, ?_⟩
    · rintro before after event id rfl hkind
      exact getElem?_outcomesFrom hkind [] before after
    · intro events' outcomes' participantId houtcomes' hsame
      obtain ⟨-, rfl⟩ := derive_eq_ok.mp houtcomes'
      rw [filter_outcomesFrom, filter_outcomesFrom, hsame]

/-- Two participants whose locked phases overlap. -/
def interleavedArrivals : List OrderedNotificationPhoneEvent :=
  [⟨"p", 0, .phoneLocked⟩, ⟨"q", 0, .phoneLocked⟩, ⟨"p", 1, .notificationArrival "a"⟩,
    ⟨"q", 2, .notificationArrival "a"⟩, ⟨"q", 3, .phoneUnlocked⟩, ⟨"p", 9, .phoneUnlocked⟩]

theorem deriveNotificationSeenTimes_interleaved :
    ∃ outcomes, deriveNotificationSeenTimes interleavedArrivals ⟨5⟩ = .ok outcomes ∧
      outcomes[0]? = some ⟨"p", "a", 1,
        .excluded .exceededMaximumSeenTime (some 9) (some 8)⟩ ∧
      outcomes[1]? = some ⟨"q", "a", 2, .retained 3 1 .nextUnlock⟩ := by
  have hresult : deriveNotificationSeenTimes interleavedArrivals ⟨5⟩ =
      .ok [⟨"p", "a", 1, .excluded .exceededMaximumSeenTime (some 9) (some 8)⟩,
        ⟨"q", "a", 2, .retained 3 1 .nextUnlock⟩] := by
    decide +kernel
  obtain ⟨-, houtcomes, -⟩ :=
    (deriveNotificationSeenTimes_spec interleavedArrivals ⟨5⟩).2 _ hresult
  exact ⟨_, hresult, houtcomes (interleavedArrivals.take 2) (interleavedArrivals.drop 3)
    ⟨"p", 1, .notificationArrival "a"⟩ "a" rfl rfl,
    houtcomes (interleavedArrivals.take 3) (interleavedArrivals.drop 4)
    ⟨"q", 2, .notificationArrival "a"⟩ "a" rfl rfl⟩

end Chronicle.Adapters
