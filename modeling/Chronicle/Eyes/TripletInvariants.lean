import Mathlib.Data.List.Nodup
import Chronicle.Eyes.BlockShape
import Chronicle.Eyes.Triplets

/-!
# Invariants of the triplet reconstruction

Events arrive in order of time. A block is created at the instant of an event, never changes its
resume, and is paused or stopped no earlier than it was created; its successor was created after it.
Every block waits in exactly one queue, that of its package.
-/

namespace Chronicle.Eyes

open Chronicle.Library Chronicle.Library.Machine

/-! ## The arena -/

/-- The end is one that the event pass assigns. -/
def TripletBlock.Fresh (b : TripletBlock) : Prop :=
  b.endInference ≠ .missingStop ∧ b.endInference ≠ .pauseFallback

/-- A block that was created at an instant. -/
structure BlockOk (instants : Set Int) (created : Int) (index : Nat) (b : TripletBlock) : Prop where
  resume : ∀ t ∈ b.timeResume, t = created
  pause : ∀ t ∈ b.timePause, created ≤ t ∧ t ∈ instants
  stop : ∀ t ∈ b.timeStop, created ≤ t ∧ t ∈ instants
  next : ∀ j ∈ b.next, index < j

/-- The blocks of the arena were created in order of time. -/
structure ArenaOk (instants : Set Int) (created : Nat → Int) (arena : List TripletBlock) : Prop where
  known : ∀ i < arena.length, created i ∈ instants
  ordered : ∀ i j, i ≤ j → j < arena.length → created i ≤ created j
  blocks : ∀ i b, arena[i]? = some b → BlockOk instants (created i) i b

/-- A change of a block that an event at an instant may make. -/
structure EventUpdate (now : Int) (f : TripletBlock → TripletBlock) : Prop where
  appName : ∀ b, (f b).appName = b.appName
  resume : ∀ b, (f b).timeResume = b.timeResume
  pause : ∀ b, (f b).timePause = b.timePause ∨ (f b).timePause = some now
  stop : ∀ b, (f b).timeStop = b.timeStop ∨ (f b).timeStop = some now
  next : ∀ b, (f b).next = b.next
  fresh : ∀ b, b.Fresh → (f b).Fresh

/-- The arena after any number of such changes. -/
inductive Updated (now : Int) (arena : List TripletBlock) : List TripletBlock → Prop where
  | refl : Updated now arena arena
  | modify {arena' : List TripletBlock} (h : Updated now arena arena') (index : Nat)
      {f : TripletBlock → TripletBlock} (hf : EventUpdate now f) :
      Updated now arena (arena'.modify index f)

variable {instants : Set Int} {now : Int} {arena arena' arena'' : List TripletBlock}
  {created : Nat → Int}

theorem Updated.trans (h : Updated now arena arena') (h' : Updated now arena' arena'') :
    Updated now arena arena'' := by
  induction h' with
  | refl => exact h
  | modify _ index hf ih => exact ih.modify index hf

theorem Updated.length_eq (h : Updated now arena arena') : arena'.length = arena.length := by
  induction h with
  | refl => rfl
  | modify _ index hf ih => rw [List.length_modify, ih]

/-- Every block keeps its package. -/
theorem Updated.appName_eq (h : Updated now arena arena') (i : Nat) :
    (arena'[i]?).map TripletBlock.appName = (arena[i]?).map TripletBlock.appName := by
  induction h with
  | refl => rfl
  | @modify arena' h index f hf ih =>
      rw [← ih, List.getElem?_modify]
      cases arena'[i]? with
      | none => rfl
      | some b =>
          by_cases hindex : index = i
          · simp [hindex, hf.appName]
          · simp [hindex]

theorem Updated.fresh (h : Updated now arena arena') (hfresh : ∀ b ∈ arena, b.Fresh) :
    ∀ b ∈ arena', b.Fresh := by
  induction h with
  | refl => exact hfresh
  | @modify arena' h index f hf ih =>
      intro b hb
      obtain ⟨i, hi⟩ := List.getElem?_of_mem hb
      rw [List.getElem?_modify, Option.map_eq_map, Option.map_eq_some_iff] at hi
      obtain ⟨b', hb', rfl⟩ := hi
      have hold := ih b' (List.mem_of_getElem? hb')
      split
      · exact hf.fresh b' hold
      · exact hold

/-- The invariant of the arena survives the changes of an event that comes no earlier than any
block was created. -/
theorem Updated.arenaOk (h : Updated now arena arena') (hnow : now ∈ instants)
    (hcreated : ∀ i < arena.length, created i ≤ now) (hok : ArenaOk instants created arena) :
    ArenaOk instants created arena' := by
  induction h with
  | refl => exact hok
  | @modify arena' h index f hf ih =>
      refine ⟨fun i hi => ih.known i (by simpa using hi),
        fun i j hij hj => ih.ordered i j hij (by simpa using hj), fun i b hb => ?_⟩
      rw [List.getElem?_modify, Option.map_eq_map, Option.map_eq_some_iff] at hb
      obtain ⟨b', hb', rfl⟩ := hb
      have hold := ih.blocks i b' hb'
      have hlater : created i ≤ now ∧ now ∈ instants :=
        ⟨hcreated i (h.length_eq ▸ (List.getElem?_eq_some_iff.mp hb').1), hnow⟩
      split
      · refine ⟨by rw [hf.resume]; exact hold.resume, fun t ht => ?_, fun t ht => ?_,
          by rw [hf.next]; exact hold.next⟩
        · rcases hf.pause b' with heq | heq <;> rw [heq] at ht
          · exact hold.pause t ht
          · exact Option.some.inj ht ▸ hlater
        · rcases hf.stop b' with heq | heq <;> rw [heq] at ht
          · exact hold.stop t ht
          · exact Option.some.inj ht ▸ hlater
      · exact hold

/-! ## The changes an event makes -/

theorem eventUpdate_pausedAt (now : Int) (inference : EyesPauseInference) :
    EventUpdate now (TripletBlock.pausedAt now inference) :=
  ⟨fun _ => rfl, fun _ => rfl, fun _ => Or.inr rfl, fun _ => Or.inl rfl, fun _ => rfl, fun _ h => h⟩

theorem eventUpdate_superseded (now : Int) : EventUpdate now TripletBlock.superseded :=
  ⟨fun _ => rfl, fun _ => rfl, fun _ => Or.inl rfl, fun _ => Or.inl rfl, fun _ => rfl, fun _ h => h⟩

theorem eventUpdate_stoppedAt (now : Int) (inference : EyesEpisodeEndInference)
    (h : inference ≠ .missingStop ∧ inference ≠ .pauseFallback) :
    EventUpdate now (TripletBlock.stoppedAt now inference) :=
  ⟨fun _ => rfl, fun _ => rfl, fun _ => Or.inl rfl, fun _ => Or.inr rfl, fun _ => rfl, fun _ _ => h⟩

theorem eventUpdate_endAs (now : Int) (inference : EyesEpisodeEndInference)
    (h : inference ≠ .missingStop ∧ inference ≠ .pauseFallback) :
    EventUpdate now (TripletBlock.endAs inference) :=
  ⟨fun _ => rfl, fun _ => rfl, fun _ => Or.inl rfl, fun _ => Or.inl rfl, fun _ => rfl, fun _ _ => h⟩

theorem eventUpdate_endIfUnobserved (now : Int) (inference : EyesEpisodeEndInference)
    (h : inference ≠ .missingStop ∧ inference ≠ .pauseFallback) :
    EventUpdate now (TripletBlock.endIfUnobserved inference) := by
  have hcases : ∀ b : TripletBlock, b.endIfUnobserved inference = b ∨
      b.endIfUnobserved inference = { b with endInference := inference } := by
    intro b
    unfold TripletBlock.endIfUnobserved
    split
    · exact Or.inr rfl
    · exact Or.inl rfl
  refine ⟨fun b => ?_, fun b => ?_, fun b => Or.inl ?_, fun b => Or.inl ?_, fun b => ?_,
    fun b hb => ?_⟩ <;> rcases hcases b with heq | heq <;> rw [heq]
  · exact hb
  · exact h

theorem updated_markAll {mark : TripletBlock → TripletBlock} (hmark : EventUpdate now mark)
    (queue : List Nat) (arena : List TripletBlock) :
    Updated now arena (markAll mark queue arena) := by
  unfold markAll
  induction queue generalizing arena with
  | nil => exact .refl
  | cons front rest ih => exact (Updated.refl.modify front hmark).trans (ih _)

/-- Draining a queue that holds the target moves all in front of it and leaves the rest. -/
theorem drainUntil_spec {mark : TripletBlock → TripletBlock} (hmark : EventUpdate now mark)
    {target : Nat} {queue : List Nat} (htarget : target ∈ queue) (arena : List TripletBlock)
    (moved : List Nat) :
    Updated now arena (drainUntil target mark queue arena moved).2.1 ∧
      (target :: ((drainUntil target mark queue arena moved).1 ++
        (drainUntil target mark queue arena moved).2.2)).Perm (queue ++ moved) := by
  induction queue generalizing arena moved with
  | nil => exact absurd htarget List.not_mem_nil
  | cons front rest ih =>
      unfold drainUntil
      split
      · rename_i heq
        exact ⟨.refl, by rw [heq]; exact List.Perm.refl _⟩
      · rename_i hne
        have hrest : target ∈ rest := (List.mem_cons.mp htarget).resolve_left (Ne.symm hne)
        obtain ⟨hupdated, hperm⟩ := ih hrest (arena.modify front mark) (moved ++ [front])
        refine ⟨(Updated.refl.modify front hmark).trans hupdated, hperm.trans ?_⟩
        rw [← List.append_assoc]
        exact (List.perm_append_singleton front (rest ++ moved))

/-! ## The creation of a block -/

/-- A block as an event of a package creates it. -/
structure NewBlock (now : Int) (package : String) (b : TripletBlock) : Prop where
  appName : b.appName = package
  resume : ∀ t ∈ b.timeResume, t = now
  pause : ∀ t ∈ b.timePause, t = now
  stop : ∀ t ∈ b.timeStop, t = now
  next : b.next = none
  fresh : b.Fresh

/-- The change that links a block to the one created after it. -/
theorem getElem?_create (block : TripletBlock) (s : TripletState) (i : Nat) :
    (s.create block).arena[i]? =
      ((s.arena ++ [block])[i]?).map fun b =>
        if s.previousLinked = some i then { b with next := some s.arena.length } else b := by
  unfold TripletState.create
  cases hlinked : s.previousLinked with
  | none => simp
  | some previous =>
      simp only [List.getElem?_modify, Option.map_eq_map, Option.some.injEq]

theorem length_create (block : TripletBlock) (s : TripletState) :
    (s.create block).arena.length = s.arena.length + 1 := by
  unfold TripletState.create
  cases s.previousLinked <;> simp

/-- Creating a block at the instant of the event keeps the invariant of the arena. -/
theorem ArenaOk.create {s : TripletState} {package : String} {block : TripletBlock}
    (hok : ArenaOk instants created s.arena) (hnow : now ∈ instants)
    (hcreated : ∀ i < s.arena.length, created i ≤ now)
    (hlinked : ∀ i ∈ s.previousLinked, i < s.arena.length) (hblock : NewBlock now package block) :
    ArenaOk instants (Function.update created s.arena.length now) (s.create block).arena := by
  have hold : ∀ i < s.arena.length, Function.update created s.arena.length now i = created i :=
    fun i hi => Function.update_of_ne (by omega) _ _
  refine ⟨fun i hi => ?_, fun i j hij hj => ?_, fun i b hb => ?_⟩
  · rw [length_create] at hi
    rcases Nat.lt_succ_iff_lt_or_eq.mp hi with hlt | rfl
    · rw [hold i hlt]
      exact hok.known i hlt
    · rwa [Function.update_self]
  · rw [length_create] at hj
    rcases Nat.lt_succ_iff_lt_or_eq.mp hj with hlt | rfl
    · rw [hold i (by omega), hold j hlt]
      exact hok.ordered i j hij hlt
    · rw [Function.update_self]
      rcases Nat.lt_or_eq_of_le hij with hlt | rfl
      · rw [hold i hlt]
        exact hcreated i hlt
      · rw [Function.update_self]
  · rw [getElem?_create, Option.map_eq_some_iff] at hb
    obtain ⟨b', hb', rfl⟩ := hb
    rcases Nat.lt_or_ge i s.arena.length with hlt | hge
    · -- an older block: only its successor can have changed
      rw [List.getElem?_append_left hlt] at hb'
      have hb := hok.blocks i b' hb'
      rw [hold i hlt]
      split
      · refine ⟨hb.resume, hb.pause, hb.stop, fun j hj => ?_⟩
        obtain rfl : s.arena.length = j := Option.some.inj hj
        exact hlt
      · exact hb
    · -- the block just made: it has no successor, and nothing yet links to it
      rw [List.getElem?_append_right hge, List.getElem?_singleton] at hb'
      obtain rfl : i = s.arena.length := by
        by_contra hne
        rw [if_neg (by omega)] at hb'
        cases hb'
      simp only [Nat.sub_self, if_true, Option.some.injEq] at hb'
      subst hb'
      have hself : s.previousLinked ≠ some s.arena.length :=
        fun h => Nat.lt_irrefl _ (hlinked _ h)
      rw [if_neg hself, Function.update_self]
      refine ⟨hblock.resume, fun t ht => ?_, fun t ht => ?_, ?_⟩
      · rw [hblock.pause t ht]
        exact ⟨le_rfl, hnow⟩
      · rw [hblock.stop t ht]
        exact ⟨le_rfl, hnow⟩
      · rw [hblock.next]
        exact fun _ h => absurd h (Option.not_mem_none _)

end Chronicle.Eyes
