import Chronicle.Eyes.TripletInvariants

/-!
# Runs of the triplet reconstruction

What one event can do to the state is said once, for an app event and for every other event; the
invariants of the queues and of the arena follow for every run over events in order of time.
-/

namespace Chronicle.Eyes

open Chronicle.Library Chronicle.Library.Machine

/-- All blocks that a package's queues hold. -/
def PackageQueues.all (queues : PackageQueues) : List Nat :=
  queues.resume ++ queues.pause ++ queues.stop

theorem PackageQueues.eq_empty {queues : PackageQueues} (h : queues.all = []) :
    queues = ⟨[], [], []⟩ := by
  obtain ⟨resume, pause, stop⟩ := queues
  simp only [PackageQueues.all, List.append_eq_nil_iff] at h
  rw [h.1.1, h.1.2, h.2]

/-- Whether the event opens, pauses or stops an app. -/
def EyesSignal.isAppSignal (signal : EyesSignal) : Bool :=
  signal = activityResumed ∨ signal = activityPaused ∨ signal = activityStopped

/-- Closing every waiting block moves it between the queues. -/
theorem perm_closeAll (queues : PackageQueues) :
    (PackageQueues.all ⟨[], [], queues.stop ++ queues.pause ++ queues.resume⟩).Perm queues.all := by
  simp only [PackageQueues.all, List.nil_append]
  exact (List.perm_append_comm.trans (List.perm_append_comm.append_left _)).trans
    (List.append_assoc .. ▸ List.Perm.refl _)

variable {now : Int} {package : String}

/-! ## What an event can do -/

/-- The blocks of the package are changed, and may move between its queues. -/
structure Moved (now : Int) (package : String) (s s' : TripletState) : Prop where
  arena : Updated now s.arena s'.arena
  linked : s'.previousLinked = s.previousLinked
  all : (s'.queues package).all.Perm (s.queues package).all

/-- A block of the package is created and queued. -/
def Created (now : Int) (package : String) (s s' : TripletState) : Prop :=
  ∃ block, NewBlock now package block ∧ s'.arena = (s.create block).arena ∧
    s'.previousLinked = some s.arena.length ∧
    (s'.queues package).all.Perm (s.arena.length :: (s.queues package).all)

/-- What an app event does once its package is known. -/
structure Acted (now : Int) (package : String) (s s' : TripletState) : Prop where
  others : ∀ other, other ≠ package → s'.queues other = s.queues other
  order : s'.packageOrder = s.packageOrder
  outcome : Moved now package s s' ∧ (s.queues package).all ≠ [] ∨ Created now package s s'

/-- What any other event does: blocks of any package may be closed. -/
structure Closed (now : Int) (s s' : TripletState) : Prop where
  order : s'.packageOrder = s.packageOrder
  moved : ∀ package, Moved now package s s'

namespace TripletState

@[simp] theorem setQueues_self (package : String) (queues : PackageQueues) (s : TripletState) :
    (s.setQueues package queues).queues package = queues :=
  Function.update_self ..

theorem setQueues_of_ne {package other : String} (h : other ≠ package) (queues : PackageQueues)
    (s : TripletState) : (s.setQueues package queues).queues other = s.queues other :=
  Function.update_of_ne h ..

/-- A package that is not known has empty queues already. -/
theorem ensurePackage_eq {s : TripletState}
    (h : package ∉ s.packageOrder → s.queues package = ⟨[], [], []⟩) :
    s.ensurePackage package =
      { s with
        packageOrder := if package ∈ s.packageOrder then s.packageOrder
          else s.packageOrder ++ [package] } := by
  unfold ensurePackage
  split
  · rfl
  · rename_i hnew
    unfold setQueues
    rw [← h hnew, Function.update_eq_self]

theorem create_ensurePackage (block : TripletBlock) (s : TripletState) :
    (s.create block).ensurePackage package = (s.ensurePackage package).create block := by
  by_cases h : package ∈ s.packageOrder
  · rw [show s.ensurePackage package = s from if_pos h]
    exact if_pos h
  · rw [show s.ensurePackage package = _ from if_neg h]
    exact if_neg h

end TripletState

open TripletState

variable {s : TripletState} (proximityNs : Int)

theorem acted_onResumed : Acted now package (s.ensurePackage package)
    (s.onResumed package now) := by
  unfold onResumed
  simp only [create_ensurePackage]
  have hlength : (s.ensurePackage package).arena.length = s.arena.length := by
    unfold ensurePackage
    split <;> rfl
  rw [← hlength]
  generalize s.ensurePackage package = s
  refine ⟨fun other h => setQueues_of_ne h .., rfl, Or.inr ⟨_, ⟨rfl, ?_, ?_, ?_, rfl, ?_⟩, rfl, rfl, ?_⟩⟩
  · exact fun t ht => (Option.some.inj ht).symm
  · exact fun _ h => absurd h (Option.not_mem_none _)
  · exact fun _ h => absurd h (Option.not_mem_none _)
  · exact ⟨nofun, nofun⟩
  · rw [setQueues_self]
    simp only [PackageQueues.all, List.append_assoc, List.singleton_append]
    exact List.perm_middle

/-- The pause binds to a block that waits for one; those in front of it are superseded. -/
theorem acted_bindPause {target : Nat} (htarget : target ∈ (s.queues package).resume)
    (inference : EyesPauseInference) :
    Acted now package s
      (let bound := s.setBlock target (TripletBlock.pausedAt now inference)
      let drained := drainUntil target TripletBlock.superseded (s.queues package).resume
        bound.arena (s.queues package).pause
      { bound.setQueues package
          { s.queues package with resume := drained.1, pause := drained.2.2 ++ [target] } with
        arena := drained.2.1 }) := by
  have hne : (s.queues package).all ≠ [] :=
    List.ne_nil_of_mem (List.mem_append_left _ (List.mem_append_left _ htarget))
  obtain ⟨hupdated, hperm⟩ := drainUntil_spec (eventUpdate_superseded now) htarget
    (s.setBlock target (TripletBlock.pausedAt now inference)).arena (s.queues package).pause
  refine ⟨fun other h => setQueues_of_ne h .., rfl, Or.inl ⟨⟨?_, rfl, ?_⟩, hne⟩⟩
  · exact (Updated.refl.modify target (eventUpdate_pausedAt now inference)).trans hupdated
  · dsimp only
    rw [setQueues_self]
    simp only [PackageQueues.all]
    refine List.Perm.append_right _ (List.Perm.trans ?_ hperm)
    rw [← List.append_assoc]
    exact List.perm_append_singleton ..

theorem acted_onPaused : Acted now package (s.ensurePackage package)
    (s.onPaused proximityNs package now) := by
  unfold onPaused
  generalize s.ensurePackage package = s
  dsimp only
  split
  · rename_i newest older older' heq
    have hresume : (s.queues package).resume = older'.reverse ++ [older, newest] := by
      rw [← List.reverse_reverse (s.queues package).resume, heq]
      simp
    split
    · exact acted_bindPause (by simp [hresume]) _
    · exact acted_bindPause (by simp [hresume]) _
  · rename_i block heq
    have hresume : (s.queues package).resume = [block] := by
      rw [← List.reverse_reverse (s.queues package).resume, heq]
      rfl
    refine ⟨fun other h => setQueues_of_ne h .., rfl, Or.inl ⟨⟨?_, rfl, ?_⟩, ?_⟩⟩
    · exact Updated.refl.modify block (eventUpdate_pausedAt now _)
    · rw [setQueues_self]
      simp only [PackageQueues.all, hresume, List.nil_append]
      exact List.Perm.append_right _ (List.perm_append_singleton ..)
    · simp [PackageQueues.all, hresume]
  · rename_i heq
    have hresume : (s.queues package).resume = [] := List.reverse_eq_nil_iff.mp heq
    refine ⟨fun other h => setQueues_of_ne h .., rfl,
      Or.inr ⟨_, ⟨rfl, ?_, ?_, ?_, rfl, ?_⟩, rfl, rfl, ?_⟩⟩
    · exact fun _ h => absurd h (Option.not_mem_none _)
    · exact fun t ht => (Option.some.inj ht).symm
    · exact fun _ h => absurd h (Option.not_mem_none _)
    · exact ⟨nofun, nofun⟩
    · rw [setQueues_self]
      simp only [PackageQueues.all, hresume, List.nil_append]
      exact List.Perm.append_right _ (List.perm_append_singleton ..)

/-- A stop is bound to a block that waits for it. -/
theorem acted_stopCurrent {current : Nat} {resume pause : List Nat}
    (hqueues : (current :: (resume ++ pause)).Perm
      ((s.queues package).resume ++ (s.queues package).pause)) :
    Acted now package s
      { (s.setBlock current (TripletBlock.stoppedAt now .observedStop)).setQueues package
          ⟨resume, pause, (s.queues package).stop ++ [current]⟩ with
        lastStopBlock := some current } := by
  have hmem : current ∈ (s.queues package).resume ++ (s.queues package).pause :=
    hqueues.subset List.mem_cons_self
  refine ⟨fun other h => setQueues_of_ne h .., rfl, Or.inl ⟨⟨?_, rfl, ?_⟩,
    List.ne_nil_of_mem (List.mem_append_left _ hmem)⟩⟩
  · exact Updated.refl.modify current (eventUpdate_stoppedAt now .observedStop ⟨nofun, nofun⟩)
  · dsimp only
    rw [setQueues_self]
    simp only [PackageQueues.all]
    refine List.Perm.trans ?_ (hqueues.append_right _)
    rw [← List.append_assoc]
    exact List.perm_append_singleton ..

theorem acted_onStopped : Acted now package (s.ensurePackage package)
    (s.onStopped proximityNs package now) := by
  unfold onStopped
  generalize s.ensurePackage package = s
  dsimp only
  split
  · rename_i hnone
    have hresume : (s.queues package).resume = [] := List.getLast?_eq_none_iff.mp hnone
    split
    · rename_i hnone
      have hpause : (s.queues package).pause = [] := List.getLast?_eq_none_iff.mp hnone
      -- with nothing resumed or paused the stop opens a block of its own
      refine ⟨fun other h => setQueues_of_ne h .., rfl,
        Or.inr ⟨_, ⟨rfl, ?_, ?_, ?_, rfl, ?_⟩, rfl, rfl, ?_⟩⟩
      · exact fun _ h => absurd h (Option.not_mem_none _)
      · exact fun _ h => absurd h (Option.not_mem_none _)
      · exact fun t ht => (Option.some.inj ht).symm
      · exact ⟨nofun, nofun⟩
      · rw [setQueues_self]
        simp only [PackageQueues.all, hresume, hpause, List.nil_append]
        exact List.perm_append_singleton ..
    · rename_i current hlast
      -- the newest paused block is stopped and the stopped queue drained up to it
      have hmem : current ∈ (s.queues package).pause := List.mem_of_getLast? hlast
      obtain ⟨hupdated, hperm⟩ := drainUntil_spec
        (eventUpdate_endIfUnobserved now .nextBlockStoppedInference ⟨nofun, nofun⟩)
        hmem (s.setBlock current (TripletBlock.stoppedAt now .observedStop)).arena
        (s.queues package).stop
      refine ⟨fun other h => setQueues_of_ne h .., rfl, Or.inl ⟨⟨?_, rfl, ?_⟩,
        List.ne_nil_of_mem (List.mem_append_left _ (List.mem_append_right _ hmem))⟩⟩
      · exact (Updated.refl.modify current
          (eventUpdate_stoppedAt now .observedStop ⟨nofun, nofun⟩)).trans hupdated
      · dsimp only
        rw [setQueues_self]
        simp only [PackageQueues.all, hresume, List.nil_append]
        refine List.Perm.trans ?_ hperm
        rw [← List.append_assoc]
        exact List.perm_append_singleton ..
  · rename_i newest hlast
    have hmem : newest ∈ (s.queues package).resume := List.mem_of_getLast? hlast
    split
    · cases hpause : (s.queues package).pause.getLast? with
      | some block =>
          have hlastpause := List.dropLast_append_getLast? block hpause
          refine acted_stopCurrent ?_
          conv_rhs => rw [← hlastpause, ← List.append_assoc]
          exact (List.perm_append_singleton ..).symm
      | none =>
          have hnil : (s.queues package).pause = [] := List.getLast?_eq_none_iff.mp hpause
          have hhead : (s.queues package).resume.headD 0 :: (s.queues package).resume.tail =
              (s.queues package).resume := by
            cases hresume : (s.queues package).resume with
            | nil => rw [hresume] at hmem; cases hmem
            | cons front rest => rfl
          refine acted_stopCurrent ?_
          rw [← List.cons_append, hhead]
    · -- the app was killed: every block of the package ends here
      refine ⟨fun other h => setQueues_of_ne h .., rfl, Or.inl ⟨⟨?_, rfl, ?_⟩,
        List.ne_nil_of_mem (List.mem_append_left _ (List.mem_append_left _ hmem))⟩⟩
      · exact ((Updated.refl.modify newest
          (eventUpdate_stoppedAt now .appKilled ⟨nofun, nofun⟩)).trans
          (updated_markAll (eventUpdate_endIfUnobserved now .appKilled ⟨nofun, nofun⟩) ..)).trans
          (updated_markAll (eventUpdate_endAs now .appKilled ⟨nofun, nofun⟩) ..)
      · dsimp only
        rw [setQueues_self]
        exact perm_closeAll _

/-! ## Reboots -/

theorem Closed.refl (s : TripletState) : Closed now s s :=
  ⟨rfl, fun _ => ⟨.refl, rfl, List.Perm.refl _⟩⟩

theorem Closed.trans {s' s'' : TripletState} (h : Closed now s s') (h' : Closed now s' s'') :
    Closed now s s'' :=
  ⟨h'.order.trans h.order, fun package =>
    ⟨(h.moved package).arena.trans (h'.moved package).arena,
      (h'.moved package).linked.trans (h.moved package).linked,
      (h'.moved package).all.trans (h.moved package).all⟩⟩

theorem closed_rebootPackage (s : TripletState) (package : String) :
    Closed now s (s.rebootPackage package) := by
  refine ⟨rfl, fun other => ⟨?_, rfl, ?_⟩⟩
  · exact (updated_markAll (eventUpdate_endAs now .systemShutDown ⟨nofun, nofun⟩) ..).trans
      (updated_markAll (eventUpdate_endAs now .systemShutDown ⟨nofun, nofun⟩) ..)
  · unfold rebootPackage
    dsimp only
    by_cases h : other = package
    · rw [h, setQueues_self]
      exact perm_closeAll _
    · rw [setQueues_of_ne h]

theorem closed_onReboot (s : TripletState) : Closed now s (s.onReboot now) := by
  have hfold : ∀ (packages : List String) (s : TripletState),
      Closed now s (packages.foldl rebootPackage s) := by
    intro packages
    induction packages with
    | nil => exact Closed.refl
    | cons package rest ih =>
        exact fun s => (closed_rebootPackage s package).trans (ih _)
  unfold onReboot
  dsimp only
  refine Closed.trans ?_ (hfold _ _)
  split
  · rename_i current _
    split
    · exact ⟨rfl, fun _ => ⟨Updated.refl.modify current
        (eventUpdate_stoppedAt now .systemShutDown ⟨nofun, nofun⟩), rfl, List.Perm.refl _⟩⟩
    · exact Closed.refl s
  · exact Closed.refl s

/-! ## One step -/

/-- The event is an app event, and acts on its package; or it is not, and closes blocks at most. -/
theorem step_cases (s : TripletState) (entry : EyesEvent × EyesSignal) :
    (entry.2.isAppSignal = true ∧ Acted entry.1.timestampNs entry.1.appPackageName
        (s.ensurePackage entry.1.appPackageName) (step proximityNs s entry)) ∨
      (entry.2.isAppSignal = false ∧ Closed entry.1.timestampNs s (step proximityNs s entry)) := by
  obtain ⟨event, signal⟩ := entry
  have hother : Closed event.timestampNs s
      (if signal.isTripletReboot then s.onReboot event.timestampNs else s) := by
    split
    · exact closed_onReboot s
    · exact Closed.refl s
  cases signal with
  | activityResumed => exact Or.inl ⟨rfl, acted_onResumed⟩
  | activityPaused => exact Or.inl ⟨rfl, acted_onPaused proximityNs⟩
  | activityStopped => exact Or.inl ⟨rfl, acted_onStopped proximityNs⟩
  | _ => exact Or.inr ⟨rfl, hother⟩

/-! ## The invariants of the state -/

/-- Distinct blocks of one package. -/
structure Owned (arena : List TripletBlock) (package : String) (blocks : List Nat) : Prop where
  nodup : blocks.Nodup
  owner : ∀ i ∈ blocks, (arena[i]?).map TripletBlock.appName = some package

/-- The blocks were created in order of time, up to an instant. -/
structure ArenaInv (instants : Set Int) (now : Int) (s : TripletState) : Prop where
  arena : ∃ created, ArenaOk instants created s.arena ∧ ∀ i < s.arena.length, created i ≤ now
  fresh : ∀ b ∈ s.arena, b.Fresh
  linked : ∀ i ∈ s.previousLinked, i < s.arena.length

/-- Every known package has blocks of its own, and no other package has any. -/
structure QueueInv (s : TripletState) : Prop where
  order : s.packageOrder.Nodup
  unknown : ∀ package ∉ s.packageOrder, s.queues package = ⟨[], [], []⟩
  owned : ∀ package, Owned s.arena package (s.queues package).all
  inhabited : ∀ package ∈ s.packageOrder, (s.queues package).all ≠ []

variable {instants : Set Int} {s' : TripletState} {arena arena' : List TripletBlock}
  {blocks blocks' : List Nat}

theorem Owned.updated (h : Owned arena package blocks) (harena : Updated now arena arena')
    (hperm : blocks'.Perm blocks) : Owned arena' package blocks' :=
  ⟨hperm.nodup_iff.mpr h.nodup, fun i hi => (harena.appName_eq i).trans
    (h.owner i (hperm.subset hi))⟩

theorem Owned.lt (h : Owned arena package blocks) {i : Nat} (hi : i ∈ blocks) :
    i < arena.length := by
  obtain ⟨b, hb, -⟩ := Option.map_eq_some_iff.mp (h.owner i hi)
  exact (List.getElem?_eq_some_iff.mp hb).1

/-- The package of a block is not changed by the creation of another. -/
theorem appName_create (block : TripletBlock) (s : TripletState) (i : Nat) :
    ((s.create block).arena[i]?).map TripletBlock.appName =
      ((s.arena ++ [block])[i]?).map TripletBlock.appName := by
  rw [getElem?_create, Option.map_map]
  congr 1
  funext b
  dsimp only [Function.comp]
  split <;> rfl

theorem Owned.append (h : Owned s.arena package blocks) (block : TripletBlock) :
    Owned (s.create block).arena package blocks := by
  refine ⟨h.nodup, fun i hi => ?_⟩
  rw [appName_create, List.getElem?_append_left (h.lt hi)]
  exact h.owner i hi

theorem Owned.created {block : TripletBlock} (h : Owned s.arena package blocks)
    (hblock : block.appName = package) (hperm : blocks'.Perm (s.arena.length :: blocks)) :
    Owned (s.create block).arena package blocks' := by
  refine ⟨hperm.nodup_iff.mpr (List.nodup_cons.mpr ⟨fun hmem => ?_, h.nodup⟩), fun i hi => ?_⟩
  · exact Nat.lt_irrefl _ (h.lt hmem)
  · rcases List.mem_cons.mp (hperm.subset hi) with rfl | hold
    · rw [appName_create]
      simp [hblock]
    · exact (h.append block).owner i hold

theorem ArenaInv.moved (h : ArenaInv instants now s) (hnow : now ∈ instants)
    (hmoved : Moved now package s s') : ArenaInv instants now s' := by
  obtain ⟨created, hok, hcreated⟩ := h.arena
  refine ⟨⟨created, hmoved.arena.arenaOk hnow hcreated hok, ?_⟩, hmoved.arena.fresh h.fresh, ?_⟩
  · rw [hmoved.arena.length_eq]
    exact hcreated
  · rw [hmoved.arena.length_eq, hmoved.linked]
    exact h.linked

theorem ArenaInv.created (h : ArenaInv instants now s) (hnow : now ∈ instants)
    (hcreate : Created now package s s') : ArenaInv instants now s' := by
  obtain ⟨created, hok, hcreated⟩ := h.arena
  obtain ⟨block, hblock, harena, hlinked, -⟩ := hcreate
  refine ⟨⟨_, harena ▸ hok.create hnow hcreated h.linked hblock, fun i hi => ?_⟩, fun b hb => ?_,
    fun i hi => ?_⟩
  · rw [harena, length_create] at hi
    rcases Nat.lt_succ_iff_lt_or_eq.mp hi with hlt | rfl
    · rw [Function.update_of_ne (by omega)]
      exact hcreated i hlt
    · rw [Function.update_self]
  · obtain ⟨i, hi⟩ := List.getElem?_of_mem hb
    rw [harena, getElem?_create, Option.map_eq_some_iff] at hi
    obtain ⟨b', hb', rfl⟩ := hi
    have hfresh : b'.Fresh := by
      rcases List.mem_append.mp (List.mem_of_getElem? hb') with hold | hnew
      · exact h.fresh b' hold
      · exact List.mem_singleton.mp hnew ▸ hblock.fresh
    split
    · exact hfresh
    · exact hfresh
  · rw [hlinked] at hi
    rw [harena, length_create]
    exact Option.some.inj hi ▸ Nat.lt_succ_self _

/-- A known package is added with its first block. -/
theorem QueueInv.acted (h : QueueInv s) (hacted : Acted now package
    { s with packageOrder := if package ∈ s.packageOrder then s.packageOrder
      else s.packageOrder ++ [package] } s') : QueueInv s' := by
  have hmem : ∀ other, other ∈ s'.packageOrder ↔ other ∈ s.packageOrder ∨ other = package := by
    intro other
    rw [hacted.order]
    dsimp only
    split
    · rename_i hknown
      exact ⟨Or.inl, fun hor => hor.elim id fun heq => heq ▸ hknown⟩
    · rw [List.mem_append, List.mem_singleton]
  have howned : ∀ other, Owned s'.arena other (s'.queues other).all := by
    intro other
    by_cases hother : other = package
    · subst hother
      rcases hacted.outcome with ⟨hmoved, -⟩ | ⟨block, hblock, harena, -, hperm⟩
      · exact (h.owned other).updated hmoved.arena hmoved.all
      · rw [harena]
        exact Owned.created (h.owned other) hblock.appName hperm
    · rw [hacted.others other hother]
      rcases hacted.outcome with ⟨hmoved, -⟩ | ⟨block, -, harena, -, -⟩
      · exact (h.owned other).updated hmoved.arena (List.Perm.refl _)
      · rw [harena]
        exact Owned.append (h.owned other) block
  refine ⟨?_, fun other hother => ?_, howned, fun other hother => ?_⟩
  · rw [hacted.order]
    dsimp only
    split
    · exact h.order
    · rename_i hnew
      exact List.nodup_append.mpr ⟨h.order, List.nodup_singleton _,
        fun _ ha _ hb heq => hnew (List.mem_singleton.mp hb ▸ heq ▸ ha)⟩
  · have hnot := not_or.mp ((hmem other).not.mp hother)
    rw [hacted.others other hnot.2]
    exact h.unknown other hnot.1
  · by_cases heq : other = package
    · subst heq
      rcases hacted.outcome with ⟨hmoved, hne⟩ | ⟨-, -, -, -, hperm⟩
      · intro hnil
        have hperm := hmoved.all
        rw [hnil] at hperm
        exact hne hperm.symm.eq_nil
      · exact fun hnil => by simp [hnil] at hperm
    · rw [hacted.others other heq]
      exact h.inhabited other (((hmem other).mp hother).resolve_right heq)

theorem QueueInv.closed (h : QueueInv s) (hclosed : Closed now s s') : QueueInv s' := by
  refine ⟨hclosed.order ▸ h.order, fun other hother => ?_, fun other =>
    (h.owned other).updated (hclosed.moved other).arena (hclosed.moved other).all,
    fun other hother hnil => ?_⟩
  · have hperm := (hclosed.moved other).all
    rw [h.unknown other (hclosed.order ▸ hother)] at hperm
    exact PackageQueues.eq_empty hperm.eq_nil
  · have hperm := (hclosed.moved other).all
    rw [hnil] at hperm
    exact h.inhabited other (hclosed.order ▸ hother) hperm.symm.eq_nil

/-! ## Runs -/

theorem arenaInv_initial (instants : Set Int) (now : Int) : ArenaInv instants now .initial := by
  refine ⟨⟨fun _ => 0, ⟨fun i hi => ?_, fun i j _ hj => ?_, fun i b hb => ?_⟩, fun i hi => ?_⟩,
    fun b hb => ?_, fun i hi => ?_⟩
  · exact absurd hi (Nat.not_lt_zero i)
  · exact absurd hj (Nat.not_lt_zero j)
  · exact absurd hb (Option.some_ne_none b).symm
  · exact absurd hi (Nat.not_lt_zero i)
  · exact absurd hb List.not_mem_nil
  · exact absurd hi (Option.not_mem_none i)

theorem queueInv_initial : QueueInv .initial :=
  ⟨List.nodup_nil, fun _ _ => rfl, fun _ => ⟨List.nodup_nil, fun _ h => absurd h List.not_mem_nil⟩,
    fun _ h => absurd h List.not_mem_nil⟩

theorem ArenaInv.later (h : ArenaInv instants now s) {later : Int} (hlater : now ≤ later) :
    ArenaInv instants later s := by
  obtain ⟨created, hok, hcreated⟩ := h.arena
  exact ⟨⟨created, hok, fun i hi => (hcreated i hi).trans hlater⟩, h.fresh, h.linked⟩

theorem ArenaInv.step (harena : ArenaInv instants now s) (hqueues : QueueInv s)
    {entry : EyesEvent × EyesSignal} (hnow : entry.1.timestampNs = now) (hinstant : now ∈ instants) :
    ArenaInv instants now (step proximityNs s entry) := by
  subst hnow
  rcases step_cases proximityNs s entry with ⟨-, hacted⟩ | ⟨-, hclosed⟩
  · have hensured : ArenaInv instants entry.1.timestampNs
        (s.ensurePackage entry.1.appPackageName) := by
      rw [ensurePackage_eq (hqueues.unknown _)]
      exact ⟨harena.arena, harena.fresh, harena.linked⟩
    rcases hacted.outcome with ⟨hmoved, -⟩ | hcreated
    · exact hensured.moved hinstant hmoved
    · exact hensured.created hinstant hcreated
  · exact harena.moved hinstant (hclosed.moved "")

theorem QueueInv.step (h : QueueInv s) (entry : EyesEvent × EyesSignal) :
    QueueInv (step proximityNs s entry) := by
  rcases step_cases proximityNs s entry with ⟨-, hacted⟩ | ⟨-, hclosed⟩
  · rw [ensurePackage_eq (h.unknown _)] at hacted
    exact h.acted hacted
  · exact h.closed hclosed

/-- A package becomes known by its first app event. -/
theorem QueueInv.mem_packageOrder_step (h : QueueInv s) (entry : EyesEvent × EyesSignal) :
    package ∈ (TripletState.step proximityNs s entry).packageOrder ↔
      package ∈ s.packageOrder ∨
        (entry.2.isAppSignal = true ∧ entry.1.appPackageName = package) := by
  rcases step_cases proximityNs s entry with ⟨happ, hacted⟩ | ⟨happ, hclosed⟩
  · rw [ensurePackage_eq (h.unknown _)] at hacted
    rw [hacted.order]
    dsimp only
    split
    · rename_i hknown
      constructor
      · exact Or.inl
      · rintro (hold | ⟨-, rfl⟩)
        · exact hold
        · exact hknown
    · simp [happ, eq_comm]
  · simp [hclosed.order, happ]

/-- The invariants hold after every run over events in order of time. -/
theorem run_invariant {events : List (EyesEvent × EyesSignal)}
    (hsorted : events.Pairwise fun a b => a.1.timestampNs ≤ b.1.timestampNs)
    (hinstants : ∀ entry ∈ events, entry.1.timestampNs ∈ instants)
    (hnow : ∀ entry ∈ events, now ≤ entry.1.timestampNs)
    (harena : ArenaInv instants now s) (hqueues : QueueInv s) :
    (∃ last, ArenaInv instants last (events.foldl (step proximityNs) s)) ∧
      QueueInv (events.foldl (step proximityNs) s) ∧
      ∀ package, package ∈ (events.foldl (step proximityNs) s).packageOrder ↔
        package ∈ s.packageOrder ∨
          ∃ entry ∈ events, entry.2.isAppSignal = true ∧ entry.1.appPackageName = package := by
  induction events generalizing now s with
  | nil => exact ⟨⟨now, harena⟩, hqueues, fun package => by simp⟩
  | cons entry rest ih =>
      have hlater := harena.later (hnow entry List.mem_cons_self)
      obtain ⟨hbefore, hrest⟩ := List.pairwise_cons.mp hsorted
      obtain ⟨hlast, hinv, hmem⟩ := ih hrest
        (fun entry' h => hinstants entry' (List.mem_cons_of_mem _ h)) hbefore
        (hlater.step proximityNs hqueues rfl (hinstants entry List.mem_cons_self))
        (hqueues.step proximityNs entry)
      refine ⟨hlast, hinv, fun package => (hmem package).trans ?_⟩
      rw [hqueues.mem_packageOrder_step, or_assoc]
      simp only [List.mem_cons, exists_eq_or_imp]

end Chronicle.Eyes
