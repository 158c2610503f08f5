import Chronicle.Library.Slots
import Chronicle.Eyes.TripletRuns

/-!
# The records of the triplet reconstruction

An app event records its instant on one block of its package: a resume on a new block, a pause or a
stop on a block that has none yet. Blocks that wait for a pause have neither pause nor stop, blocks
that wait for a stop have no stop, so no instant is ever overwritten.
-/

namespace Chronicle.Eyes

open Chronicle.Library.Slots

/-- The three instants of a block, each recorded by its own kind of event. -/
inductive Moment where
  | resume
  | pause
  | stop
deriving DecidableEq, Repr

/-- The instant of a block. -/
def TripletBlock.moment : Moment → TripletBlock → Option Int
  | .resume, b => b.timeResume
  | .pause, b => b.timePause
  | .stop, b => b.timeStop

/-- The instant of a block, with its package. -/
def TripletBlock.record (m : Moment) (b : TripletBlock) : Option (String × Int) :=
  (b.moment m).map fun t => (b.appName, t)

/-- The instant that an event of the signal records. -/
def EyesSignal.moment : EyesSignal → Option Moment
  | .activityResumed => some .resume
  | .activityPaused => some .pause
  | .activityStopped => some .stop
  | _ => none

/-- The package and the instant of an event that records the moment. -/
def eventRecord (m : Moment) (entry : EyesEvent × EyesSignal) : Option (String × Int) :=
  if entry.2.moment = some m then some (entry.1.appPackageName, entry.1.timestampNs) else none

/-- The record of the block at an index. -/
abbrev recordOf (m : Moment) (arena : List TripletBlock) (i : Nat) : Option (String × Int) :=
  recordAt (TripletBlock.record m) arena i

/-! ## Changes of the arena -/

/-- A change that keeps every instant. -/
def KeepsRecords (f : TripletBlock → TripletBlock) : Prop := ∀ m b, (f b).record m = b.record m

/-- A change that sets one instant. -/
structure SetsMoment (m : Moment) (now : Int) (f : TripletBlock → TripletBlock) : Prop where
  appName : ∀ b, (f b).appName = b.appName
  own : ∀ b, (f b).moment m = some now
  other : ∀ k ≠ m, ∀ b, (f b).moment k = b.moment k

theorem keepsRecords_superseded : KeepsRecords TripletBlock.superseded := fun m _ => by
  cases m <;> rfl

theorem keepsRecords_endAs (inference : EyesEpisodeEndInference) :
    KeepsRecords (TripletBlock.endAs inference) := fun m _ => by
  cases m <;> rfl

theorem keepsRecords_endIfUnobserved (inference : EyesEpisodeEndInference) :
    KeepsRecords (TripletBlock.endIfUnobserved inference) := fun m b => by
  unfold TripletBlock.endIfUnobserved
  split
  · exact keepsRecords_endAs inference m b
  · rfl

theorem setsMoment_pausedAt (now : Int) (inference : EyesPauseInference) :
    SetsMoment .pause now (TripletBlock.pausedAt now inference) :=
  ⟨fun _ => rfl, fun _ => rfl, fun k hk _ => by cases k <;> first | rfl | exact absurd rfl hk⟩

theorem setsMoment_stoppedAt (now : Int) (inference : EyesEpisodeEndInference) :
    SetsMoment .stop now (TripletBlock.stoppedAt now inference) :=
  ⟨fun _ => rfl, fun _ => rfl, fun k hk _ => by cases k <;> first | rfl | exact absurd rfl hk⟩

variable {m k : Moment} {package : String} {now : Int} {s s' : TripletState}
  {arena : List TripletBlock} {mark : TripletBlock → TripletBlock} {target : Nat}

theorem recordOf_markAll (hmark : KeepsRecords mark) (queue : List Nat)
    (arena : List TripletBlock) (i : Nat) :
    recordOf k (markAll mark queue arena) i = recordOf k arena i := by
  unfold markAll
  induction queue generalizing arena with
  | nil => rfl
  | cons front rest ih =>
      rw [List.foldl_cons, ih]
      exact recordAt_modify_of_keeps (hmark k) arena front i

theorem recordOf_drainUntil (hmark : KeepsRecords mark) (target : Nat) (queue : List Nat)
    (arena : List TripletBlock) (moved : List Nat) (i : Nat) :
    recordOf k (drainUntil target mark queue arena moved).2.1 i = recordOf k arena i := by
  induction queue generalizing arena moved with
  | nil => rfl
  | cons front rest ih =>
      unfold drainUntil
      split
      · rfl
      · rw [ih]
        exact recordAt_modify_of_keeps (hmark k) arena front i

/-- What is left of a drained queue was in it. -/
theorem drainUntil_subset (target : Nat) (queue : List Nat) (arena : List TripletBlock)
    (moved : List Nat) : (drainUntil target mark queue arena moved).1 ⊆ queue := by
  induction queue generalizing arena moved with
  | nil => exact List.Subset.refl _
  | cons front rest ih =>
      unfold drainUntil
      split
      · exact List.subset_cons_self front rest
      · exact List.subset_cons_of_subset front (ih _ _)

/-- Setting an instant of a block of the package records it there, and nothing else. -/
theorem recordOf_modify {f : TripletBlock → TripletBlock} (hsets : SetsMoment m now f)
    (howner : (arena[target]?).map TripletBlock.appName = some package) (k : Moment) (i : Nat) :
    recordOf k (arena.modify target f) i =
      if k = m ∧ i = target then some (package, now) else recordOf k arena i := by
  obtain ⟨b, hb, rfl⟩ := Option.map_eq_some_iff.mp howner
  by_cases hk : k = m
  · have hrecord : (f b).record k = some (b.appName, now) := by
      rw [TripletBlock.record, hk, hsets.own, hsets.appName, Option.map_some]
    simp only [hk, true_and] at hrecord ⊢
    exact recordAt_modify hb hrecord i
  · have hkeeps : ∀ b, (f b).record k = b.record k := fun b => by
      rw [TripletBlock.record, hsets.other k hk, hsets.appName]
      rfl
    rw [if_neg fun h => hk h.1]
    exact recordAt_modify_of_keeps hkeeps arena target i

/-- The new block has its own records. -/
theorem recordOf_create (block : TripletBlock) (s : TripletState) (k : Moment) (i : Nat) :
    recordOf k (s.create block).arena i =
      if i = s.arena.length then block.record k else recordOf k s.arena i := by
  rw [← recordAt_append]
  unfold recordOf recordAt
  rw [getElem?_create, Option.bind_map]
  congr 1
  funext b
  dsimp only [Function.comp]
  -- the link to a successor is no record
  split
  · cases k <;> rfl
  · rfl

/-! ## What an app event records -/

/-- No block that waits has the instant it waits for, and the last stopped block has its stop. -/
structure Waiting (s : TripletState) : Prop where
  resume : ∀ package, ∀ i ∈ (s.queues package).resume,
    recordOf .pause s.arena i = none ∧ recordOf .stop s.arena i = none
  pause : ∀ package, ∀ i ∈ (s.queues package).pause, recordOf .stop s.arena i = none
  last : ∀ i ∈ s.lastStopBlock, recordOf .stop s.arena i ≠ none

/-- The instant is recorded on one block of the package that had none, and the block no longer
waits for it. -/
structure Wrote (m : Moment) (package : String) (now : Int) (s s' : TripletState) (target : Nat) :
    Prop where
  free : recordOf m s.arena target = none
  records : ∀ k i, recordOf k s'.arena i =
    if k = m ∧ i = target then some (package, now) else recordOf k s.arena i
  place : target ∈ (s.queues package).all ∨ target = s.arena.length
  resume : ∀ i ∈ (s'.queues package).resume,
    (recordOf .pause s.arena i = none ∧ recordOf .stop s.arena i = none) ∧
      (m = .resume ∨ i ≠ target)
  pause : ∀ i ∈ (s'.queues package).pause, recordOf .stop s.arena i = none ∧
    (m ≠ .stop ∨ i ≠ target)
  last : ∀ i ∈ s'.lastStopBlock, i ∈ s.lastStopBlock ∨ m = .stop ∧ i = target

/-- Nothing waits for an instant past the end of the arena. -/
theorem recordOf_length (m : Moment) (arena : List TripletBlock) :
    recordOf m arena arena.length = none :=
  recordAt_of_length_le le_rfl

/-- No other record is lost when one is written. -/
theorem Wrote.recorded (h : Wrote m package now s s' target) {k : Moment} {i : Nat}
    (hrecord : recordOf k s.arena i ≠ none) : recordOf k s'.arena i ≠ none := by
  rw [h.records]
  split
  · exact Option.some_ne_none _
  · exact hrecord

theorem Wrote.unrecorded (h : Wrote m package now s s' target) {k : Moment} {i : Nat}
    (hrecord : recordOf k s.arena i = none) (hother : k ≠ m ∨ i ≠ target) :
    recordOf k s'.arena i = none := by
  rw [h.records, if_neg fun heq => hother.elim (· heq.1) (· heq.2)]
  exact hrecord

/-- The blocks that wait afterwards still have nothing of what they wait for. -/
theorem Waiting.wrote (h : Waiting s)
    (howned : ∀ package, Owned s.arena package (s.queues package).all)
    (hacted : Acted now package s s') (hwrote : Wrote m package now s s' target) : Waiting s' := by
  have houtsider : ∀ other ≠ package, ∀ i ∈ (s.queues other).all, i ≠ target := by
    rintro other hne i hi rfl
    rcases hwrote.place with hown | hnew
    · have hsame := ((howned other).owner i hi).symm.trans ((howned package).owner i hown)
      exact hne (Option.some.inj hsame)
    · have hlt := (howned other).lt hi
      omega
  have helsewhere : ∀ k ≠ Moment.resume, ∀ {i}, m = .resume ∨ i ≠ target → k ≠ m ∨ i ≠ target := by
    rintro k hk i (rfl | hne)
    · exact Or.inl hk
    · exact Or.inr hne
  refine ⟨fun other i hi => ?_, fun other i hi => ?_, fun i hi => ?_⟩
  · by_cases heq : other = package
    · obtain ⟨⟨hnopause, hnostop⟩, hother⟩ := hwrote.resume i (heq ▸ hi)
      exact ⟨hwrote.unrecorded hnopause (helsewhere .pause nofun hother),
        hwrote.unrecorded hnostop (helsewhere .stop nofun hother)⟩
    · rw [hacted.others other heq] at hi
      have hne := houtsider other heq i (List.mem_append_left _ (List.mem_append_left _ hi))
      obtain ⟨hnopause, hnostop⟩ := h.resume other i hi
      exact ⟨hwrote.unrecorded hnopause (Or.inr hne), hwrote.unrecorded hnostop (Or.inr hne)⟩
  · by_cases heq : other = package
    · obtain ⟨hnostop, hother⟩ := hwrote.pause i (heq ▸ hi)
      exact hwrote.unrecorded hnostop (hother.imp_left Ne.symm)
    · rw [hacted.others other heq] at hi
      have hne := houtsider other heq i (List.mem_append_left _ (List.mem_append_right _ hi))
      exact hwrote.unrecorded (h.pause other i hi) (Or.inr hne)
  · rcases hwrote.last i hi with hold | ⟨rfl, rfl⟩
    · exact hwrote.recorded (h.last i hold)
    · rw [hwrote.records, if_pos ⟨rfl, rfl⟩]
      exact Option.some_ne_none _

end Chronicle.Eyes
