import Chronicle.Library.Stages
import Mathlib.Data.List.Induction

/-!
# The evidence journal

Every event of the journal carries the digest of the one before it. A journal that was only appended
to is accepted with every transition in its place, and the last digest of an accepted journal
determines all of its events.
-/

namespace Chronicle.Workflow

open Chronicle.Library.Stages

/-- `MaterializationState` -/
inductive MaterializationState where
  | open
  | ready
  | satisfied
  | blocked
  | invalid
  | notApplicable
deriving DecidableEq, Repr

/-- `Transition` -/
structure Transition where
  eventKind : String
  subjectId : String
  fromState : Option MaterializationState
  toState : MaterializationState
  reasonId : String
  sourceId : String
  revision : Nat
deriving DecidableEq, Repr

/-- `UnsignedJournalEvent` -/
structure UnsignedJournalEvent extends Transition where
  sequence : Nat
  previousDigest : Option String
deriving DecidableEq, Repr

/-- `JournalEvent` -/
structure JournalEvent extends UnsignedJournalEvent where
  eventDigest : String
deriving DecidableEq, Repr

-- the digest of the canonical JSON of an event
variable (digest : UnsignedJournalEvent → String)

/-- The digest that the next event names. -/
def lastDigest (events : List JournalEvent) : Option String :=
  events.getLast?.map JournalEvent.eventDigest

/-- `EvidenceJournal::append` -/
def append (events : List JournalEvent) (transition : Transition) : List JournalEvent :=
  let unsigned : UnsignedJournalEvent :=
    { transition with sequence := events.length, previousDigest := lastDigest events }
  events ++ [{ unsigned with eventDigest := digest unsigned }]

/-- The events of `EvidenceJournal::verify`, after one with the digest. -/
def verifyFrom : Option String → List JournalEvent → Except String Unit
  | _, [] => .ok ()
  | previous, event :: events => do
      require (event.previousDigest = previous)
        ("journal chain broken at sequence " ++ toString event.sequence)
      require (digest event.toUnsignedJournalEvent = event.eventDigest)
        ("journal digest mismatch at sequence " ++ toString event.sequence)
      verifyFrom (some event.eventDigest) events

/-- `EvidenceJournal::verify` -/
def verify (events : List JournalEvent) : Except String Unit := verifyFrom digest none events

variable {digest} {events events' : List JournalEvent}

theorem verifyFrom_append_singleton {event : JournalEvent} {previous : Option String} :
    verifyFrom digest previous (events ++ [event]) = .ok () ↔
      verifyFrom digest previous events = .ok () ∧
        event.previousDigest = (lastDigest events).or previous ∧
        digest event.toUnsignedJournalEvent = event.eventDigest := by
  induction events generalizing previous with
  | nil => simp [verifyFrom, check_and, require_eq_ok, lastDigest]
  | cons first rest ih =>
      have hlast : (lastDigest (first :: rest)).or previous =
          (lastDigest rest).or (some first.eventDigest) := by
        cases h : rest.getLast? <;> simp [lastDigest, List.getLast?_cons, h]
      simp only [List.cons_append, verifyFrom, check_and, ih, hlast, and_assoc]

theorem verify_append_singleton {event : JournalEvent} :
    verify digest (events ++ [event]) = .ok () ↔
      verify digest events = .ok () ∧ event.previousDigest = lastDigest events ∧
        digest event.toUnsignedJournalEvent = event.eventDigest := by
  simp [verify, verifyFrom_append_singleton]

/-- A journal that was only appended to is accepted, and its events are the transitions, numbered in
order. -/
theorem appended_verify (digest : UnsignedJournalEvent → String) (transitions : List Transition) :
    verify digest (transitions.foldl (append digest) []) = .ok () ∧
      ((transitions.foldl (append digest) []).map fun event =>
        (event.toTransition, event.sequence)) = transitions.zipIdx := by
  induction transitions using List.reverseRecOn with
  | nil => exact ⟨rfl, rfl⟩
  | append_singleton transitions last ih =>
      obtain ⟨hverify, hmap⟩ := ih
      have hlength := congrArg List.length hmap
      rw [List.length_map, List.length_zipIdx] at hlength
      rw [List.foldl_append]
      exact ⟨verify_append_singleton.mpr ⟨hverify, rfl, rfl⟩, by
        simp [append, hmap, List.zipIdx_append, hlength]⟩

/-- Where no two events of accepted journals have one digest, the last digest determines all of the
events. -/
theorem verified_journals_equal
    (hdigest : ∀ event ∈ events, ∀ event' ∈ events',
      digest event.toUnsignedJournalEvent = digest event'.toUnsignedJournalEvent →
        event.toUnsignedJournalEvent = event'.toUnsignedJournalEvent)
    (h : verify digest events = .ok ()) (h' : verify digest events' = .ok ())
    (hlast : lastDigest events = lastDigest events') : events = events' := by
  induction events using List.reverseRecOn generalizing events' with
  | nil =>
      cases events' using List.reverseRecOn with
      | nil => rfl
      | append_singleton events' last => simp [lastDigest] at hlast
  | append_singleton events last ih =>
      cases events' using List.reverseRecOn with
      | nil => simp [lastDigest] at hlast
      | append_singleton events' last' =>
          obtain ⟨hverify, hprevious, hsigned⟩ := verify_append_singleton.mp h
          obtain ⟨hverify', hprevious', hsigned'⟩ := verify_append_singleton.mp h'
          have hsame : last.eventDigest = last'.eventDigest := by simpa [lastDigest] using hlast
          have hunsigned : last.toUnsignedJournalEvent = last'.toUnsignedJournalEvent :=
            hdigest _ (by simp) _ (by simp) (by rw [hsigned, hsigned', hsame])
          have hbefore : events = events' :=
            ih (fun event hevent event' hevent' =>
              hdigest event (List.mem_append_left _ hevent) event' (List.mem_append_left _ hevent'))
              hverify hverify' (by rw [← hprevious, hunsigned, hprevious'])
          cases last
          cases last'
          cases hunsigned
          cases hsame
          rw [hbefore]

/-- The transition of an assigned input. -/
def rawAssigned : Transition :=
  ⟨"role-assigned", "raw_chronicle_csv", some .open, .satisfied, "reason:1", "artifact:1", 1⟩

/-- Its digest, as that of the first event of a journal. -/
def rawAssignedDigest : String :=
  "sha256:42eafb9de307ee2b9b5395f503cc3d475ae3c5cdbb1448a157b8868aac64dbee"

/-- The journal with the digest of one appended transition is that of the transition. -/
theorem verified_journals_equal_assigned :
    [⟨⟨rawAssigned, 0, none⟩, rawAssignedDigest⟩] =
      append (fun _ => rawAssignedDigest) [] rawAssigned :=
  @verified_journals_equal (fun _ => rawAssignedDigest) _ _ (by simp [append, lastDigest])
    rfl rfl rfl

end Chronicle.Workflow
