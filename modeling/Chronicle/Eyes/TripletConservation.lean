import Chronicle.Eyes.Episodes
import Chronicle.Eyes.TripletRecords

/-!
# Conservation by the triplet reconstruction

Every app event is recorded on exactly one block of its package, and every block is emitted as
exactly one episode, which keeps what was recorded on it.
-/

namespace Chronicle.Eyes

open Chronicle.Library.Slots TripletState

variable {m k : Moment} {package : String} {now : Int} {s s' : TripletState} {target : Nat}

/-! ## The events -/

/-- A block is created with the one instant of its event. -/
theorem records_create {block : TripletBlock} (hblock : ∀ k,
    block.record k = if k = m then some (package, now) else none) (k : Moment) (i : Nat) :
    recordOf k (s.create block).arena i =
      if k = m ∧ i = s.arena.length then some (package, now) else recordOf k s.arena i := by
  rw [recordOf_create]
  by_cases hi : i = s.arena.length
  · subst hi
    simp only [if_true, and_true, hblock, recordOf_length]
  · rw [if_neg hi, if_neg fun h => hi h.2]

/-- A created block waits where it is queued: it has nothing but the instant of its event. -/
theorem wrote_create (hwaiting : Waiting s) {block : TripletBlock} (hblock : ∀ k,
    block.record k = if k = m then some (package, now) else none) {queues : PackageQueues}
    (hresume : ∀ i ∈ queues.resume, i ∈ (s.queues package).resume ∧ m = .resume ∨
      i = s.arena.length ∧ m = .resume)
    (hpause : ∀ i ∈ queues.pause, i ∈ (s.queues package).pause ∧ m ≠ .stop ∨
      i = s.arena.length ∧ m ≠ .stop) :
    Wrote m package now s ((s.create block).setQueues package queues) s.arena.length := by
  refine ⟨recordOf_length .., records_create hblock, Or.inr rfl, fun i hi => ?_, fun i hi => ?_,
    fun i hi => Or.inl hi⟩
  · rw [setQueues_self] at hi
    rcases hresume i hi with ⟨hold, hm⟩ | ⟨rfl, hm⟩
    · exact ⟨hwaiting.resume package i hold, Or.inl hm⟩
    · exact ⟨⟨recordOf_length .., recordOf_length ..⟩, Or.inl hm⟩
  · rw [setQueues_self] at hi
    rcases hpause i hi with ⟨hold, hm⟩ | ⟨rfl, hm⟩
    · exact ⟨hwaiting.pause package i hold, Or.inl hm⟩
    · exact ⟨recordOf_length .., Or.inl hm⟩

/-- The target is in neither queue after a drain, and the others come from where they were. -/
structure Drained (target : Nat) (queue moved rest moved' : List Nat) : Prop where
  rest : ∀ i ∈ rest, i ∈ queue ∧ i ≠ target
  moved : ∀ i ∈ moved', (i ∈ queue ∨ i ∈ moved) ∧ i ≠ target

theorem drained_drainUntil {mark : TripletBlock → TripletBlock} (hmark : EventUpdate now mark)
    {queue moved : List Nat} (htarget : target ∈ queue) (hnodup : (queue ++ moved).Nodup)
    (arena : List TripletBlock) :
    Drained target queue moved (drainUntil target mark queue arena moved).1
      (drainUntil target mark queue arena moved).2.2 := by
  obtain ⟨-, hperm⟩ := drainUntil_spec hmark htarget arena moved
  have hnot := (List.nodup_cons.mp (hperm.nodup_iff.mpr hnodup)).1
  rw [List.mem_append, not_or] at hnot
  refine ⟨fun i hi => ⟨drainUntil_subset target queue arena moved hi, fun heq => hnot.1 (heq ▸ hi)⟩,
    fun i hi => ⟨?_, fun heq => hnot.2 (heq ▸ hi)⟩⟩
  have hmem := hperm.subset (List.mem_cons_of_mem target (List.mem_append_right _ hi))
  exact List.mem_append.mp hmem

theorem Owned.nodup_waiting {queues : PackageQueues} {arena : List TripletBlock}
    (h : Owned arena package queues.all) : (queues.resume ++ queues.pause).Nodup :=
  h.nodup.sublist (List.sublist_append_left _ _)

theorem Owned.nodup_pause {queues : PackageQueues} {arena : List TripletBlock}
    (h : Owned arena package queues.all) : (queues.pause ++ queues.stop).Nodup := by
  have hall := h.nodup
  rw [PackageQueues.all, List.append_assoc] at hall
  exact hall.sublist (List.sublist_append_right _ _)

section Bound

variable (hwaiting : Waiting s) (howned : Owned s.arena package (s.queues package).all)

include hwaiting howned

/-- The pause binds to a block that waits for one. -/
theorem wrote_bindPause (htarget : target ∈ (s.queues package).resume)
    (inference : EyesPauseInference) :
    Wrote .pause package now s
      (let bound := s.setBlock target (TripletBlock.pausedAt now inference)
      let drained := drainUntil target TripletBlock.superseded (s.queues package).resume
        bound.arena (s.queues package).pause
      { bound.setQueues package
          { s.queues package with resume := drained.1, pause := drained.2.2 ++ [target] } with
        arena := drained.2.1 }) target := by
  have hmem : target ∈ (s.queues package).all :=
    List.mem_append_left _ (List.mem_append_left _ htarget)
  have hdrained := drained_drainUntil (eventUpdate_superseded now) htarget howned.nodup_waiting
    (s.setBlock target (TripletBlock.pausedAt now inference)).arena
  refine ⟨(hwaiting.resume package target htarget).1, fun k i => ?_, Or.inl hmem, fun i hi => ?_,
    fun i hi => ?_, fun i hi => Or.inl hi⟩
  · dsimp only
    rw [recordOf_drainUntil keepsRecords_superseded]
    exact recordOf_modify (setsMoment_pausedAt now inference) (howned.owner target hmem) k i
  · dsimp only at hi
    rw [setQueues_self] at hi
    obtain ⟨hqueued, hne⟩ := hdrained.rest i hi
    exact ⟨hwaiting.resume package i hqueued, Or.inr hne⟩
  · dsimp only at hi
    rw [setQueues_self] at hi
    refine ⟨?_, Or.inl nofun⟩
    rcases List.mem_append.mp hi with hmoved | hbound
    · rcases (hdrained.moved i hmoved).1 with hresume | hpause
      · exact (hwaiting.resume package i hresume).2
      · exact hwaiting.pause package i hpause
    · rw [List.mem_singleton.mp hbound]
      exact (hwaiting.resume package target htarget).2

/-- The stop binds to a block that waits, and the queues lose it. -/
theorem wrote_stopCurrent {current : Nat} {resume pause : List Nat}
    (hresume : resume ⊆ (s.queues package).resume) (hpause : pause ⊆ (s.queues package).pause)
    (hqueues : (current :: (resume ++ pause)).Perm
      ((s.queues package).resume ++ (s.queues package).pause)) :
    Wrote .stop package now s
      { (s.setBlock current (TripletBlock.stoppedAt now .observedStop)).setQueues package
          ⟨resume, pause, (s.queues package).stop ++ [current]⟩ with
        lastStopBlock := some current } current := by
  have hcurrent : current ∈ (s.queues package).resume ++ (s.queues package).pause :=
    hqueues.subset List.mem_cons_self
  have hmem : current ∈ (s.queues package).all := List.mem_append_left _ hcurrent
  have hnot := (List.nodup_cons.mp (hqueues.nodup_iff.mpr howned.nodup_waiting)).1
  rw [List.mem_append, not_or] at hnot
  refine ⟨?_, fun k i => ?_, Or.inl hmem, fun i hi => ?_, fun i hi => ?_, fun i hi => ?_⟩
  · rcases List.mem_append.mp hcurrent with hin | hin
    · exact (hwaiting.resume package current hin).2
    · exact hwaiting.pause package current hin
  · exact recordOf_modify (setsMoment_stoppedAt now .observedStop) (howned.owner current hmem) k i
  · dsimp only at hi
    rw [setQueues_self] at hi
    exact ⟨hwaiting.resume package i (hresume hi), Or.inr fun heq => hnot.1 (heq ▸ hi)⟩
  · dsimp only at hi
    rw [setQueues_self] at hi
    exact ⟨hwaiting.pause package i (hpause hi), Or.inr fun heq => hnot.2 (heq ▸ hi)⟩
  · exact Or.inr ⟨rfl, (Option.some.inj hi).symm⟩

/-- The stop binds to the newest block that waits for one; those in front of it are closed. -/
theorem wrote_drainStop (htarget : target ∈ (s.queues package).pause)
    (hempty : (s.queues package).resume = []) :
    Wrote .stop package now s
      (let bound := s.setBlock target (TripletBlock.stoppedAt now .observedStop)
      let drained := drainUntil target (TripletBlock.endIfUnobserved .nextBlockStoppedInference)
        (s.queues package).pause bound.arena (s.queues package).stop
      { bound.setQueues package
          { s.queues package with pause := drained.1, stop := drained.2.2 ++ [target] } with
        arena := drained.2.1
        lastStopBlock := some target }) target := by
  have hmem : target ∈ (s.queues package).all :=
    List.mem_append_left _ (List.mem_append_right _ htarget)
  have hdrained := drained_drainUntil
    (eventUpdate_endIfUnobserved now .nextBlockStoppedInference ⟨nofun, nofun⟩) htarget
    howned.nodup_pause (s.setBlock target (TripletBlock.stoppedAt now .observedStop)).arena
  refine ⟨hwaiting.pause package target htarget, fun k i => ?_, Or.inl hmem, fun i hi => ?_,
    fun i hi => ?_, fun i hi => Or.inr ⟨rfl, (Option.some.inj hi).symm⟩⟩
  · dsimp only
    rw [recordOf_drainUntil (keepsRecords_endIfUnobserved _)]
    exact recordOf_modify (setsMoment_stoppedAt now .observedStop) (howned.owner target hmem) k i
  · dsimp only at hi
    rw [setQueues_self, hempty] at hi
    exact absurd hi List.not_mem_nil
  · dsimp only at hi
    rw [setQueues_self] at hi
    obtain ⟨hqueued, hne⟩ := hdrained.rest i hi
    exact ⟨hwaiting.pause package i hqueued, Or.inr hne⟩

/-- The stop kills the package: its newest resumed block has it, and no block waits any longer. -/
theorem wrote_kill (htarget : target ∈ (s.queues package).resume) :
    Wrote .stop package now s
      (let bound := s.setBlock target (TripletBlock.stoppedAt now .appKilled)
      let queues := s.queues package
      let arena := markAll (TripletBlock.endAs .appKilled) queues.resume
        (markAll (TripletBlock.endIfUnobserved .appKilled) queues.pause bound.arena)
      { bound.setQueues package ⟨[], [], queues.stop ++ queues.pause ++ queues.resume⟩ with
        arena }) target := by
  have hmem : target ∈ (s.queues package).all :=
    List.mem_append_left _ (List.mem_append_left _ htarget)
  refine ⟨(hwaiting.resume package target htarget).2, fun k i => ?_, Or.inl hmem, fun i hi => ?_,
    fun i hi => ?_, fun i hi => Or.inl hi⟩
  · dsimp only
    rw [recordOf_markAll (keepsRecords_endAs _), recordOf_markAll (keepsRecords_endIfUnobserved _)]
    exact recordOf_modify (setsMoment_stoppedAt now .appKilled) (howned.owner target hmem) k i
  · dsimp only at hi
    rw [setQueues_self] at hi
    exact absurd hi List.not_mem_nil
  · dsimp only at hi
    rw [setQueues_self] at hi
    exact absurd hi List.not_mem_nil

end Bound

theorem wrote_onResumed (hwaiting : Waiting (s.ensurePackage package)) :
    ∃ target, Wrote .resume package now (s.ensurePackage package) (s.onResumed package now)
      target := by
  unfold onResumed
  simp only [create_ensurePackage]
  have hlength : (s.ensurePackage package).arena.length = s.arena.length := by
    unfold ensurePackage
    split <;> rfl
  rw [← hlength]
  generalize s.ensurePackage package = s at hwaiting
  refine ⟨_, wrote_create hwaiting (fun k => by cases k <;> rfl) (fun i hi => ?_)
    fun i hi => Or.inl ⟨hi, nofun⟩⟩
  rcases List.mem_append.mp hi with hold | hnew
  · exact Or.inl ⟨hold, rfl⟩
  · exact Or.inr ⟨List.mem_singleton.mp hnew, rfl⟩

variable (proximityNs : Int)

theorem wrote_onPaused (hwaiting : Waiting (s.ensurePackage package))
    (howned : Owned (s.ensurePackage package).arena package
      ((s.ensurePackage package).queues package).all) :
    ∃ target, Wrote .pause package now (s.ensurePackage package)
      (s.onPaused proximityNs package now) target := by
  unfold onPaused
  generalize s.ensurePackage package = s at hwaiting howned
  dsimp only
  split
  · rename_i newest older older' heq
    have hresume : (s.queues package).resume = older'.reverse ++ [older, newest] := by
      rw [← List.reverse_reverse (s.queues package).resume, heq]
      simp
    split
    · exact ⟨older, wrote_bindPause hwaiting howned (by simp [hresume]) _⟩
    · exact ⟨newest, wrote_bindPause hwaiting howned (by simp [hresume]) _⟩
  · rename_i block heq
    have hresume : (s.queues package).resume = [block] := by
      rw [← List.reverse_reverse (s.queues package).resume, heq]
      rfl
    -- draining a queue of one block until that block leaves nothing and moves nothing
    have hbound : Wrote .pause package now s _ block := wrote_bindPause hwaiting howned
      (show block ∈ (s.queues package).resume by simp [hresume]) .observed
    simp only [hresume, drainUntil, if_true] at hbound
    exact ⟨block, hbound⟩
  · rename_i heq
    have hresume : (s.queues package).resume = [] := List.reverse_eq_nil_iff.mp heq
    refine ⟨_, wrote_create hwaiting (fun k => by cases k <;> rfl) (fun i hi => ?_)
      fun i hi => ?_⟩
    · rw [hresume] at hi
      exact absurd hi List.not_mem_nil
    · rcases List.mem_append.mp hi with hold | hnew
      · exact Or.inl ⟨hold, nofun⟩
      · exact Or.inr ⟨List.mem_singleton.mp hnew, nofun⟩

theorem wrote_onStopped (hwaiting : Waiting (s.ensurePackage package))
    (howned : Owned (s.ensurePackage package).arena package
      ((s.ensurePackage package).queues package).all) :
    ∃ target, Wrote .stop package now (s.ensurePackage package)
      (s.onStopped proximityNs package now) target := by
  unfold onStopped
  generalize s.ensurePackage package = s at hwaiting howned
  dsimp only
  split
  · rename_i hnone
    have hresume : (s.queues package).resume = [] := List.getLast?_eq_none_iff.mp hnone
    split
    · rename_i hnone
      have hpause : (s.queues package).pause = [] := List.getLast?_eq_none_iff.mp hnone
      refine ⟨_, wrote_create hwaiting (fun k => by cases k <;> rfl) (fun i hi => ?_)
        fun i hi => ?_⟩
      · rw [hresume] at hi
        exact absurd hi List.not_mem_nil
      · rw [hpause] at hi
        exact absurd hi List.not_mem_nil
    · rename_i current hlast
      exact ⟨current, wrote_drainStop hwaiting howned (List.mem_of_getLast? hlast) hresume⟩
  · rename_i newest hlast
    have hmem : newest ∈ (s.queues package).resume := List.mem_of_getLast? hlast
    split
    · cases hpause : (s.queues package).pause.getLast? with
      | some block =>
          have hlastpause := List.dropLast_append_getLast? block hpause
          refine ⟨block, wrote_stopCurrent hwaiting howned (List.Subset.refl _)
            (List.dropLast_subset _) ?_⟩
          conv_rhs => rw [← hlastpause, ← List.append_assoc]
          exact (List.perm_append_singleton ..).symm
      | none =>
          have hhead : (s.queues package).resume.headD 0 :: (s.queues package).resume.tail =
              (s.queues package).resume := by
            cases hresume : (s.queues package).resume with
            | nil => rw [hresume] at hmem; cases hmem
            | cons front rest => rfl
          refine ⟨_, wrote_stopCurrent hwaiting howned (List.tail_subset _)
            (List.Subset.refl _) ?_⟩
          rw [← List.cons_append, hhead]
    · exact ⟨newest, wrote_kill hwaiting howned hmem⟩

/-! ## Reboots -/

/-- Nothing is recorded, and no block waits that did not wait before. -/
structure Kept (s s' : TripletState) : Prop where
  records : ∀ k i, recordOf k s'.arena i = recordOf k s.arena i
  resume : ∀ package, (s'.queues package).resume ⊆ (s.queues package).resume
  pause : ∀ package, (s'.queues package).pause ⊆ (s.queues package).pause
  last : s'.lastStopBlock = s.lastStopBlock

theorem Kept.refl (s : TripletState) : Kept s s :=
  ⟨fun _ _ => rfl, fun _ => List.Subset.refl _, fun _ => List.Subset.refl _, rfl⟩

theorem Kept.trans {s'' : TripletState} (h : Kept s s') (h' : Kept s' s'') : Kept s s'' :=
  ⟨fun k i => (h'.records k i).trans (h.records k i),
    fun package => List.Subset.trans (h'.resume package) (h.resume package),
    fun package => List.Subset.trans (h'.pause package) (h.pause package), h'.last.trans h.last⟩

theorem Waiting.kept (h : Waiting s) (hkept : Kept s s') : Waiting s' := by
  refine ⟨fun package i hi => ?_, fun package i hi => ?_, fun i hi => ?_⟩
  · rw [hkept.records, hkept.records]
    exact h.resume package i (hkept.resume package hi)
  · rw [hkept.records]
    exact h.pause package i (hkept.pause package hi)
  · rw [hkept.records]
    exact h.last i (hkept.last ▸ hi)

theorem kept_rebootPackage (s : TripletState) (package : String) :
    Kept s (s.rebootPackage package) := by
  have hqueues : ∀ other, ((s.rebootPackage package).queues other).resume ⊆
        (s.queues other).resume ∧
      ((s.rebootPackage package).queues other).pause ⊆ (s.queues other).pause := by
    intro other
    unfold rebootPackage
    dsimp only
    by_cases heq : other = package
    · rw [heq, setQueues_self]
      exact ⟨List.nil_subset _, List.nil_subset _⟩
    · rw [setQueues_of_ne heq]
      exact ⟨List.Subset.refl _, List.Subset.refl _⟩
  refine ⟨fun k i => ?_, fun other => (hqueues other).1, fun other => (hqueues other).2, rfl⟩
  show recordOf k (markAll (TripletBlock.endAs .systemShutDown) (s.queues package).resume
    (markAll (TripletBlock.endAs .systemShutDown) (s.queues package).pause s.arena)) i = _
  rw [recordOf_markAll (keepsRecords_endAs _), recordOf_markAll (keepsRecords_endAs _)]

/-- The last stopped block has its stop already, so a reboot closes blocks without an instant. -/
theorem kept_onReboot (hwaiting : Waiting s) : Kept s (s.onReboot now) := by
  have hfold : ∀ (packages : List String) (s : TripletState),
      Kept s (packages.foldl rebootPackage s) := by
    intro packages
    induction packages with
    | nil => exact Kept.refl
    | cons package rest ih => exact fun s => (kept_rebootPackage s package).trans (ih _)
  unfold onReboot
  dsimp only
  refine Kept.trans ?_ (hfold _ _)
  split
  · rename_i current hlast
    have hstopped := hwaiting.last current hlast
    rw [if_neg]
    · exact Kept.refl s
    · intro hnone
      refine hstopped ?_
      show (s.arena[current]?).bind (fun b => b.timeStop.map _) = none
      cases hblock : s.arena[current]? with
      | none => rfl
      | some b =>
          rw [hblock, Option.bind_some, Option.isNone_iff_eq_none] at hnone
          rw [Option.bind_some, hnone]
          rfl
  · exact Kept.refl s

/-! ## One step -/

/-- The records of a moment, in the order of the blocks. -/
abbrev collected (m : Moment) (arena : List TripletBlock) : List (String × Int) :=
  arena.filterMap (TripletBlock.record m)

theorem Wrote.collected_perm (h : Wrote m package now s s' target) (k : Moment) :
    (collected k s'.arena).Perm
      ((if some m = some k then some (package, now) else none).toList ++ collected k s.arena) := by
  by_cases hk : k = m
  · subst hk
    rw [if_pos rfl]
    exact filterMap_perm_cons h.free fun i => by simpa using h.records k i
  · rw [if_neg fun heq => hk (Option.some.inj heq).symm]
    exact List.Perm.of_eq (filterMap_eq fun i =>
      (h.records k i).trans (if_neg fun heq => hk heq.1))

/-- A step records the instant of its event, once, and keeps what was recorded. -/
theorem collected_step (hwaiting : Waiting s) (hqueues : QueueInv s)
    (entry : EyesEvent × EyesSignal) :
    Waiting (step proximityNs s entry) ∧ ∀ m, (collected m (step proximityNs s entry).arena).Perm
      ((eventRecord m entry).toList ++ collected m s.arena) := by
  obtain ⟨event, signal⟩ := entry
  have hensured := ensurePackage_eq (hqueues.unknown event.appPackageName)
  have hwaitingEnsured : Waiting (s.ensurePackage event.appPackageName) := by
    rw [hensured]
    exact ⟨hwaiting.resume, hwaiting.pause, hwaiting.last⟩
  have hownedEnsured : ∀ package, Owned (s.ensurePackage event.appPackageName).arena package
      ((s.ensurePackage event.appPackageName).queues package).all := by
    rw [hensured]
    exact hqueues.owned
  have harena : (s.ensurePackage event.appPackageName).arena = s.arena := by rw [hensured]
  -- each of the three app signals writes its own moment into one block
  have hwrote : ∀ {m : Moment} {s' : TripletState}, signal.moment = some m →
      Acted event.timestampNs event.appPackageName (s.ensurePackage event.appPackageName) s' →
      (∃ target, Wrote m event.appPackageName event.timestampNs
        (s.ensurePackage event.appPackageName) s' target) →
      Waiting s' ∧ ∀ k, (collected k s'.arena).Perm
        ((eventRecord k (event, signal)).toList ++ collected k s.arena) := by
    rintro m s' hsignal hacted ⟨target, h⟩
    refine ⟨hwaitingEnsured.wrote hownedEnsured hacted h, fun k => ?_⟩
    rw [eventRecord, hsignal, ← harena]
    exact h.collected_perm k
  cases hsignal : signal with
  | activityResumed =>
      subst hsignal
      exact hwrote rfl acted_onResumed (wrote_onResumed hwaitingEnsured)
  | activityPaused =>
      subst hsignal
      exact hwrote rfl (acted_onPaused proximityNs)
        (wrote_onPaused proximityNs hwaitingEnsured (hownedEnsured _))
  | activityStopped =>
      subst hsignal
      exact hwrote rfl (acted_onStopped proximityNs)
        (wrote_onStopped proximityNs hwaitingEnsured (hownedEnsured _))
  | _ =>
      -- no other signal writes a record, a reboot included
      have hkept : Kept s (if signal.isTripletReboot then s.onReboot event.timestampNs else s) := by
        split
        · exact kept_onReboot hwaiting
        · exact Kept.refl s
      subst hsignal
      exact ⟨hwaiting.kept hkept, fun m => List.Perm.of_eq (filterMap_eq (hkept.records m))⟩

/-- Every block is in the queues of a package. -/
def Placed (s : TripletState) : Prop := ∀ i < s.arena.length, ∃ package, i ∈ (s.queues package).all

theorem Placed.moved (h : Placed s) (hlength : s'.arena.length = s.arena.length)
    (hall : ∀ package, (s'.queues package).all.Perm (s.queues package).all) : Placed s' := by
  intro i hi
  obtain ⟨owner, howner⟩ := h i (hlength ▸ hi)
  exact ⟨owner, (hall owner).symm.subset howner⟩

theorem Placed.step (h : Placed s) (hqueues : QueueInv s) (entry : EyesEvent × EyesSignal) :
    Placed (step proximityNs s entry) := by
  rcases step_cases proximityNs s entry with ⟨-, hacted⟩ | ⟨-, hclosed⟩
  · rw [ensurePackage_eq (hqueues.unknown _)] at hacted
    rcases hacted.outcome with ⟨hmoved, -⟩ | ⟨block, -, harena, -, hperm⟩
    · refine h.moved hmoved.arena.length_eq fun other => ?_
      by_cases heq : other = entry.1.appPackageName
      · exact heq ▸ hmoved.all
      · exact List.Perm.of_eq (congrArg PackageQueues.all (hacted.others other heq))
    · intro i hi
      rw [harena, length_create] at hi
      rcases Nat.lt_succ_iff_lt_or_eq.mp hi with hold | rfl
      · obtain ⟨owner, howner⟩ := h i hold
        by_cases heq : owner = entry.1.appPackageName
        · exact ⟨_, hperm.symm.subset (List.mem_cons_of_mem _ (heq ▸ howner))⟩
        · exact ⟨owner, by rw [hacted.others owner heq]; exact howner⟩
      · exact ⟨_, hperm.symm.subset List.mem_cons_self⟩
  · exact h.moved (hclosed.moved "").arena.length_eq fun other => (hclosed.moved other).all

/-! ## Runs -/

/-- After every run each event has been recorded once, and every block is in a queue. -/
theorem run_collected {events : List (EyesEvent × EyesSignal)} (hwaiting : Waiting s)
    (hqueues : QueueInv s) (hplaced : Placed s) :
    Placed (events.foldl (step proximityNs) s) ∧
      ∀ m, (collected m (events.foldl (step proximityNs) s).arena).Perm
        (events.filterMap (eventRecord m) ++ collected m s.arena) := by
  induction events generalizing s with
  | nil => exact ⟨hplaced, fun m => List.Perm.refl _⟩
  | cons entry rest ih =>
      obtain ⟨hwaiting', hstep⟩ := collected_step proximityNs hwaiting hqueues entry
      obtain ⟨hlast, hrest⟩ := ih hwaiting' (hqueues.step proximityNs entry)
        (hplaced.step proximityNs hqueues entry)
      refine ⟨hlast, fun m => ?_⟩
      have hfirst : (entry :: rest).filterMap (eventRecord m) =
          (eventRecord m entry).toList ++ rest.filterMap (eventRecord m) := by
        rw [List.filterMap_cons]
        cases eventRecord m entry <;> rfl
      let later := rest.filterMap (eventRecord m)
      let recorded := (eventRecord m entry).toList
      calc (collected m ((entry :: rest).foldl (step proximityNs) s).arena).Perm
            (later ++ collected m (step proximityNs s entry).arena) := hrest m
        (later ++ collected m (step proximityNs s entry).arena).Perm
            (later ++ (recorded ++ collected m s.arena)) := (hstep m).append_left _
        (later ++ (recorded ++ collected m s.arena)).Perm
            ((entry :: rest).filterMap (eventRecord m) ++ collected m s.arena) := by
              rw [hfirst, ← List.append_assoc]
              exact List.perm_append_comm.append_right _

/-- The positions of a list, in order, hold its entries. -/
theorem filterMap_getElem?_range {α : Type*} (l : List α) :
    (List.range l.length).filterMap (l[·]?) = l := by
  induction l using List.reverseRecOn with
  | nil => rfl
  | append_singleton l a ih =>
      have hinit : (List.range l.length).filterMap ((l ++ [a])[·]?) =
          (List.range l.length).filterMap (l[·]?) :=
        List.filterMap_congr fun i hi => List.getElem?_append_left (List.mem_range.mp hi)
      have hlast : [l.length].filterMap ((l ++ [a])[·]?) = [a] := by
        rw [List.filterMap_cons, List.getElem?_concat_length]
        rfl
      rw [List.length_append, List.length_singleton, List.range_succ, List.filterMap_append, hinit,
        ih, hlast]

theorem waiting_initial : Waiting .initial :=
  ⟨fun _ _ h => absurd h List.not_mem_nil, fun _ _ h => absurd h List.not_mem_nil,
    fun _ h => absurd h (Option.not_mem_none _)⟩

/-- Every block is emitted once. -/
theorem QueueInv.emissionOrder_perm_range (h : QueueInv s) (hplaced : Placed s) :
    s.emissionOrder.Perm (List.range s.arena.length) := by
  refine (List.perm_ext_iff_of_nodup h.nodup_emissionOrder List.nodup_range).mpr fun i => ?_
  rw [s.emissionOrder_perm.mem_iff, List.mem_flatMap, List.mem_range]
  constructor
  · rintro ⟨package, -, hi⟩
    exact (h.owned package).lt hi
  · intro hi
    obtain ⟨package, hmem⟩ := hplaced i hi
    refine ⟨package, ?_, hmem⟩
    by_contra hunknown
    rw [h.unknown package hunknown] at hmem
    exact absurd hmem List.not_mem_nil

/-! ## The second pass -/

/-- The package and the instant of an episode, as recorded by the events. -/
def EyesAppEpisode.record (m : Moment) (episode : EyesAppEpisode) : Option (String × Int) :=
  match m with
  | .resume => episode.timeResumeNs.map fun t => (episode.appPackageName, t)
  | .pause => episode.timePauseNs.map fun t => (episode.appPackageName, t)
  | .stop => episode.timeStopNs.map fun t => (episode.appPackageName, t)

/-- The episode has what was recorded on the block; only a missing stop may have been repaired. -/
structure Emitted (block : TripletBlock) (episode : EyesAppEpisode) : Prop where
  appName : episode.appPackageName = block.appName
  resume : episode.timeResumeNs = block.timeResume
  pause : episode.timePauseNs = block.timePause
  stop : ∀ t ∈ block.timeStop, episode.timeStopNs = some t

/-- The episode is not paused or stopped before it was resumed. -/
def EyesAppEpisode.Ordered (episode : EyesAppEpisode) : Prop :=
  ∀ resume ∈ episode.timeResumeNs,
    (∀ pause ∈ episode.timePauseNs, resume ≤ pause) ∧ ∀ stop ∈ episode.timeStopNs, resume ≤ stop

variable {instants : Set Int} {created : Nat → Int} {arena : List TripletBlock} {index : Nat}
  {block resolved : TripletBlock}

/-- The second pass gives a block a stop of its own instants, and otherwise keeps it. -/
structure Restopped (instants : Set Int) (createdNs : Int) (block resolved : TripletBlock) :
    Prop where
  appName : resolved.appName = block.appName
  resume : resolved.timeResume = block.timeResume
  pause : resolved.timePause = block.timePause
  next : resolved.next = block.next
  kept : ∀ t ∈ block.timeStop, resolved.timeStop = some t
  stop : ∀ t ∈ resolved.timeStop, createdNs ≤ t ∧ t ∈ instants

theorem Restopped.blockOk {createdNs : Int} (h : Restopped instants createdNs block resolved)
    (hok : BlockOk instants createdNs index block) : BlockOk instants createdNs index resolved :=
  ⟨h.resume ▸ hok.resume, h.pause ▸ hok.pause, h.stop, h.next ▸ hok.next⟩

theorem restopped_endAs {createdNs : Int} (hok : BlockOk instants createdNs index block)
    (inference : EyesEpisodeEndInference) :
    Restopped instants createdNs block (block.endAs inference) :=
  ⟨rfl, rfl, rfl, rfl, fun _ ht => ht, hok.stop⟩

theorem restopped_refl {createdNs : Int} (hok : BlockOk instants createdNs index block) :
    Restopped instants createdNs block block :=
  ⟨rfl, rfl, rfl, rfl, fun _ ht => ht, hok.stop⟩

theorem restopped_boundedByPause {createdNs : Int} (hok : BlockOk instants createdNs index block)
    (resume : Int) : Restopped instants createdNs block (block.boundedByPause resume).1 := by
  unfold TripletBlock.boundedByPause
  split
  · exact restopped_endAs hok .pauseFallback
  · exact restopped_refl hok

/-- The repair looks at a block created later, and replaces no stop. -/
theorem restopped_repairBlock (hok : ArenaOk instants created arena)
    (hblock : arena[index]? = some block) (hstop : block.timeStop = none) (resume : Int) :
    Restopped instants (created index) block (repairBlock arena resume block).1 := by
  have hbounds := hok.blocks index block hblock
  have hnone : ∀ {stop : Option Int}, ∀ t ∈ block.timeStop, stop = some t := fun t ht => by
    rw [hstop] at ht
    exact absurd ht (Option.not_mem_none t)
  unfold repairBlock
  split
  · exact restopped_boundedByPause hbounds resume
  · rename_i candidate hcandidate
    obtain ⟨later, hwalk, hlater⟩ := Option.bind_eq_some_iff.mp hcandidate
    have hindex := walkChain_later hok hbounds.next hwalk
    have hlength := (List.getElem?_eq_some_iff.mp hlater).1
    have hordered := hok.ordered index later hindex.le hlength
    have hlaterOk := hok.blocks later candidate hlater
    dsimp only
    split
    · refine ⟨rfl, rfl, rfl, rfl, hnone, fun t ht => ?_⟩
      exact ⟨hordered.trans (hlaterOk.stop t ht).1, (hlaterOk.stop t ht).2⟩
    · refine ⟨rfl, rfl, rfl, rfl, hnone, fun t ht => ?_⟩
      rw [hlaterOk.resume t ht]
      exact ⟨hordered, hok.known later hlength⟩

theorem restopped_resolveBlock (hok : ArenaOk instants created arena)
    (hblock : arena[index]? = some block) (durationMode : EyesDurationMode) :
    Restopped instants (created index) block (resolveBlock arena durationMode block).1 := by
  have hbounds := hok.blocks index block hblock
  unfold resolveBlock
  split
  · exact restopped_refl hbounds
  · rename_i resume _
    split
    · exact restopped_refl hbounds
    · split
      · exact restopped_refl hbounds
      · exact restopped_refl hbounds
      · exact restopped_refl hbounds
      · exact restopped_refl hbounds
      · rename_i hstop
        exact restopped_repairBlock hok hblock hstop resume
      · rename_i hstop
        exact restopped_repairBlock hok hblock hstop resume
      · rename_i hstop
        exact restopped_repairBlock hok hblock hstop resume
      · exact restopped_boundedByPause hbounds resume

theorem Restopped.emitted {createdNs : Int} (h : Restopped instants createdNs block resolved)
    (seconds : Chronicle.Library.Binary64) : Emitted block (resolved.episode seconds) :=
  ⟨h.appName, h.resume, h.pause, h.kept⟩

theorem BlockOk.ordered {createdNs : Int} (h : BlockOk instants createdNs index resolved)
    (seconds : Chronicle.Library.Binary64) : (resolved.episode seconds).Ordered := by
  intro resume hresume
  rw [h.resume resume hresume]
  exact ⟨fun pause hpause => (h.pause pause hpause).1, fun stop hstop => (h.stop stop hstop).1⟩

/-- The blocks are emitted in order, each as it was left by the events but for a repaired stop. -/
theorem emitEpisodes_emitted {indices : List Nat} (hok : ArenaOk instants created arena)
    (hnodup : indices.Nodup) (durationMode : EyesDurationMode) :
    List.Forall₂ Emitted (indices.filterMap (arena[·]?)) (emitEpisodes durationMode indices arena) ∧
      ∀ episode ∈ emitEpisodes durationMode indices arena, episode.Ordered := by
  induction indices generalizing arena with
  | nil => exact ⟨.nil, fun _ h => absurd h List.not_mem_nil⟩
  | cons i rest ih =>
      obtain ⟨hnot, hrest⟩ := List.nodup_cons.mp hnodup
      rw [List.filterMap_cons]
      unfold emitEpisodes
      cases hblock : arena[i]? with
      | none => exact ih hok hrest
      | some block =>
          have hresolved := restopped_resolveBlock hok hblock durationMode
          have hblockOk := hresolved.blockOk (hok.blocks i block hblock)
          -- a repair changes no block that is still to be emitted
          have hother : rest.filterMap (arena[·]?) = rest.filterMap
              ((arena.set i (resolveBlock arena durationMode block).1)[·]?) :=
            List.filterMap_congr fun j hj =>
              (List.getElem?_set_ne fun heq => hnot (by rwa [heq])).symm
          obtain ⟨hemitted, hordered⟩ := ih (hok.set hblockOk) hrest
          refine ⟨.cons (hresolved.emitted _) (hother ▸ hemitted),
            List.forall_mem_cons.mpr ⟨hblockOk.ordered _, hordered⟩⟩

/-- The records of the episodes are those of the blocks, stops apart. -/
theorem filterMap_record_emitted {blocks : List TripletBlock} {episodes : List EyesAppEpisode}
    (h : List.Forall₂ Emitted blocks episodes) (hm : m ≠ .stop) :
    episodes.filterMap (EyesAppEpisode.record m) = collected m blocks := by
  induction h with
  | nil => rfl
  | @cons block episode blocks episodes hemitted _ ih =>
      have hrecord : episode.record m = block.record m := by
        cases m with
        | resume =>
            show episode.timeResumeNs.map _ = block.timeResume.map _
            rw [hemitted.resume, hemitted.appName]
        | pause =>
            show episode.timePauseNs.map _ = block.timePause.map _
            rw [hemitted.pause, hemitted.appName]
        | stop => exact absurd rfl hm
      rw [List.filterMap_cons, collected, List.filterMap_cons, hrecord, ih]

/-! ## Conservation -/

/-- The blocks as the events leave them, in the order in which they are emitted. -/
def appTripletBlocks (events : List (EyesEvent × EyesSignal)) (options : EyesOptions) :
    List TripletBlock :=
  let s := events.foldl
    (TripletState.step (secondsToNs options.proximityIntervalSeconds)) TripletState.initial
  s.emissionOrder.filterMap (s.arena[·]?)

/-- What a whole run records, and what is emitted of it. -/
theorem reconstructAppTriplets_run {events : List (EyesEvent × EyesSignal)} (options : EyesOptions)
    (hsorted : events.Pairwise fun a b => a.1.timestampNs ≤ b.1.timestampNs) :
    List.Forall₂ Emitted (appTripletBlocks events options)
        (reconstructAppTriplets events options) ∧
      (∀ episode ∈ reconstructAppTriplets events options, episode.Ordered) ∧
      ∀ m, (collected m (appTripletBlocks events options)).Perm
        (events.filterMap (eventRecord m)) := by
  obtain ⟨first, hfirst⟩ : ∃ first, ∀ entry ∈ events, first ≤ entry.1.timestampNs := by
    cases events with
    | nil => exact ⟨0, fun _ h => absurd h List.not_mem_nil⟩
    | cons entry rest =>
        exact ⟨entry.1.timestampNs,
          List.forall_mem_cons.mpr ⟨le_rfl, (List.pairwise_cons.mp hsorted).1⟩⟩
  let proximityNs := secondsToNs options.proximityIntervalSeconds
  let s := events.foldl (step proximityNs) TripletState.initial
  obtain ⟨⟨last, harena⟩, hqueues, -⟩ := run_invariant proximityNs hsorted
    (fun entry _ => Set.mem_univ entry.1.timestampNs) hfirst
    (arenaInv_initial Set.univ first) queueInv_initial
  obtain ⟨hplaced, hcollected⟩ := run_collected proximityNs waiting_initial
    queueInv_initial fun i hi => absurd hi (Nat.not_lt_zero i)
  obtain ⟨created, hok, -⟩ := harena.arena
  obtain ⟨hemitted, hordered⟩ :=
    emitEpisodes_emitted hok hqueues.nodup_emissionOrder options.durationMode
  -- every block of the arena is emitted once
  have hblocks : (appTripletBlocks events options).Perm s.arena := by
    have hperm := (hqueues.emissionOrder_perm_range hplaced).filterMap (s.arena[·]?)
    rwa [filterMap_getElem?_range] at hperm
  refine ⟨hemitted, hordered, fun m => ?_⟩
  have hrun := (hblocks.filterMap (TripletBlock.record m)).trans (hcollected m)
  rwa [show collected m TripletState.initial.arena = [] from rfl, List.append_nil] at hrun

/-- The resumes and the pauses of the episodes are those of the events. -/
theorem episode_records_perm {events : List (EyesEvent × EyesSignal)} {options : EyesOptions}
    (hsorted : events.Pairwise fun a b => a.1.timestampNs ≤ b.1.timestampNs) (hm : m ≠ .stop) :
    ((reconstructAppTriplets events options).filterMap (EyesAppEpisode.record m)).Perm
      (events.filterMap (eventRecord m)) := by
  obtain ⟨hemitted, -, hrecorded⟩ := reconstructAppTriplets_run options hsorted
  exact (List.Perm.of_eq (filterMap_record_emitted hemitted hm)).trans (hrecorded m)

/-- The resume of an episode is that of a resumed event of its package. -/
theorem exists_resumed_event {events : List (EyesEvent × EyesSignal)} {options : EyesOptions}
    (hsorted : events.Pairwise fun a b => a.1.timestampNs ≤ b.1.timestampNs)
    {episode : EyesAppEpisode} (hepisode : episode ∈ reconstructAppTriplets events options)
    {resume : Int} (hresume : episode.timeResumeNs = some resume) :
    ∃ entry ∈ events, entry.2 = .activityResumed ∧
      entry.1.appPackageName = episode.appPackageName ∧ entry.1.timestampNs = resume := by
  have hrecord : episode.record .resume = some (episode.appPackageName, resume) := by
    show episode.timeResumeNs.map _ = _
    rw [hresume, Option.map_some]
  have hmem := (episode_records_perm hsorted (show Moment.resume ≠ .stop by nofun)).subset
    (List.mem_filterMap.mpr ⟨episode, hepisode, hrecord⟩)
  obtain ⟨entry, hentry, hevent⟩ := List.mem_filterMap.mp hmem
  unfold eventRecord at hevent
  split at hevent
  · rename_i hmoment
    obtain ⟨hpackage, hinstant⟩ := Prod.mk.inj (Option.some.inj hevent)
    refine ⟨entry, hentry, ?_, hpackage, hinstant⟩
    cases hsignal : entry.2 <;> rw [hsignal] at hmoment <;> first | rfl | cases hmoment
  · cases hevent

/-- Nothing is lost and nothing is duplicated: the resumes and the pauses of the episodes are those
of the events, each once, with their packages; so are the stops of the blocks that the episodes are
made from; and no episode is paused or stopped before it was resumed. -/
theorem reconstruct_app_triplets_conserves (events : List (EyesEvent × EyesSignal))
    (options : EyesOptions)
    (hsorted : events.Pairwise fun a b => a.1.timestampNs ≤ b.1.timestampNs) :
    ((reconstructAppTriplets events options).filterMap (EyesAppEpisode.record .resume)).Perm
        (events.filterMap (eventRecord .resume)) ∧
      ((reconstructAppTriplets events options).filterMap (EyesAppEpisode.record .pause)).Perm
        (events.filterMap (eventRecord .pause)) ∧
      ((appTripletBlocks events options).filterMap (TripletBlock.record .stop)).Perm
        (events.filterMap (eventRecord .stop)) ∧
      List.Forall₂ Emitted (appTripletBlocks events options)
        (reconstructAppTriplets events options) ∧
      ∀ episode ∈ reconstructAppTriplets events options, episode.Ordered := by
  obtain ⟨hemitted, hordered, hrecorded⟩ := reconstructAppTriplets_run options hsorted
  exact ⟨episode_records_perm hsorted nofun, episode_records_perm hsorted nofun, hrecorded .stop,
    hemitted, hordered⟩

/-- An app stopped while another of its blocks still waits for a stop. -/
def restartedAppEvents : List (EyesEvent × EyesSignal) :=
  [(⟨0, "Activity Resumed", "maps"⟩, .activityResumed),
    (⟨4000000000, "Activity Paused", "maps"⟩, .activityPaused),
    (⟨9000000000, "Activity Resumed", "maps"⟩, .activityResumed),
    (⟨12000000000, "Activity Paused", "maps"⟩, .activityPaused),
    (⟨20000000000, "Activity Stopped", "maps"⟩, .activityStopped)]

theorem reconstruct_app_triplets_conserves_restarted :
    ((reconstructAppTriplets restartedAppEvents (productionOptions 1000000000)).filterMap
        (EyesAppEpisode.record .resume)).Perm [("maps", 0), ("maps", 9000000000)] ∧
      ((appTripletBlocks restartedAppEvents (productionOptions 1000000000)).filterMap
        (TripletBlock.record .stop)).Perm [("maps", 20000000000)] :=
  have h := reconstruct_app_triplets_conserves restartedAppEvents (productionOptions 1000000000)
    (by decide)
  ⟨h.1, h.2.2.1⟩

end Chronicle.Eyes
